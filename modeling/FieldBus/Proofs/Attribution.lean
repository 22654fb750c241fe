import FieldBus.Proofs.Blame
import FieldBus.Proofs.CutShort
import FieldBus.Proofs.Placement
import FieldBus.Proofs.Resynchronization

/-!
# Which frame a defect belongs to

A station that reads a defect answers if it was named in the broken frame, and nobody answers if no
station was.  So the station of a defect must come from the very frame that was broken, and not from
one before it, and so must the fault.

* `Receiver.Chronicle` — a receiver in any use: it is fed any bytes, and reset at any time.  What a
  call leaves may be fed again or lost.
* `Receiver.Within` — the frame that is under way: where it began, and that nothing was told since.
* `Receiver.Breaks` — what there is to say of a defect, from the bytes of its frame and the byte
  that broke it alone.
* **`Receiver.Chronicle.breaks_of_defect`** — every defect is that of the frame under way.
-/

namespace FieldBus

namespace Phase

variable {traffic : Traffic} {mode : CheckMode} {phase next : Phase} {seen : Bytes} {b : UInt8}

/-! ## What a silent step leaves held -/

lemma holds_of_begin (h : begin traffic b = .silent next) :
    (Byte.opensFrame b = true ∧ next.Holds traffic [b]) ∨ next.Holds traffic [] := by
  rw [begin.eq_def] at h
  split_ifs at h with hstx heot
  · cases h
    subst hstx
    exact .inl ⟨rfl, .address_nil⟩
  · subst heot
    cases traffic with
    | commands =>
        cases h
        exact .inl ⟨rfl, .selectAddress_nil rfl⟩
    | replies => cases h
  · cases h
    exact .inr .idle

lemma Holds.ne_nil (hholds : phase.Holds traffic seen) (hopen : phase.isOpen = true) :
    seen ≠ [] := by
  cases hholds <;> first | exact List.cons_ne_nil _ _ | cases hopen

/-- What is held behind a silent step: the byte as well, or the byte alone, which then has opened a
frame, or nothing. -/
lemma holds_of_silent (hholds : phase.Holds traffic seen)
    (h : phase.step traffic mode b = .silent next) :
    (seen ≠ [] ∧ next.Holds traffic (seen ++ [b])) ∨
      (phase.isOpen = false ∧ phase ≠ .skippingCheck ∧ Byte.opensFrame b = true ∧
        next.Holds traffic [b]) ∨ next.Holds traffic [] := by
  by_cases hopen : phase.isOpen = true
  · have hstepped := step_of_isOpen mode b hholds hopen
    rw [h] at hstepped
    cases hstepped with
    | on _ hnext => exact .inl ⟨hholds.ne_nil hopen, hnext⟩
  · have hclosed : phase.isOpen = false := by simpa using hopen
    have hbegin : phase ≠ .skippingCheck → begin traffic b = .silent next →
        (phase.isOpen = false ∧ phase ≠ .skippingCheck ∧ Byte.opensFrame b = true ∧
          next.Holds traffic [b]) ∨ next.Holds traffic [] := fun hphase hsilent =>
      (holds_of_begin hsilent).imp_left fun ⟨hb, hnext⟩ => ⟨hclosed, hphase, hb, hnext⟩
    cases hholds with
    | idle => exact .inr (hbegin (by simp) h)
    | skipping =>
        rw [step] at h
        split_ifs at h
        · exact .inr (hbegin (by simp) h)
        · cases h
          exact .inr (.inr .skippingCheck)
        · cases h
          exact .inr (.inr .skipping)
    | skippingCheck =>
        cases h
        exact .inr (.inr .idle)
    | @selectAddress a hcommands ha hlength =>
        obtain rfl : a = [] := by simpa [isOpen] using hopen
        rw [step] at h
        by_cases hb : Byte.isDigit b = true
        · rw [Byte.digit_of_isDigit hb] at h
          cases h
          exact .inl ⟨List.cons_ne_nil _ _,
            .selectAddress (a := [b]) hcommands (by simp [hb]) (by simp)⟩
        · rw [Byte.digit_of_not_isDigit (by simpa using hb)] at h
          exact .inr (hbegin (by simp) h)
    | _ => exact absurd rfl hopen

end Phase

namespace Receiver

/-! ## The frame under way -/

/-- A receiver in any use.  It is fed any bytes and reset at any time, and what a call leaves may be
fed again or lost.  `happenings` are the reports and the resets so far, each with the number of
bytes that were taken by then, and `past` are the bytes taken. -/
inductive Chronicle (traffic : Traffic) (mode : CheckMode) :
    List (Nat × Happening) → Bytes → Receiver → Prop
  | start : Chronicle traffic mode [] [] (.start traffic mode)
  | feed {happenings : List (Nat × Happening)} {past : Bytes} {mid : Receiver} (chunk : Bytes)
      (h : Chronicle traffic mode happenings past mid) :
      Chronicle traffic mode
        (happenings ++ ((mid.feed chunk).report?.map fun report =>
          (past.length + (mid.feed chunk).taken, Happening.report report)).toList)
        (past ++ chunk.take (mid.feed chunk).taken) (mid.feed chunk).receiver
  | reset {happenings : List (Nat × Happening)} {past : Bytes} {mid : Receiver}
      (h : Chronicle traffic mode happenings past mid) :
      Chronicle traffic mode (happenings ++ [(past.length, .reset)]) past mid.reset

/-- The frame that a receiver is within.  `seen` are the last of the bytes taken, and `mid` is the
receiver in front of them, to which the same had happened.  It treats the first of them as a byte
between frames, which opens one, and tells of nothing until all are taken. -/
structure Within (traffic : Traffic) (mode : CheckMode) (happenings : List (Nat × Happening))
    (past seen : Bytes) (mid : Receiver) (phase : Phase) : Prop where
  chronicle : ∃ lead, past = lead ++ seen ∧ Chronicle traffic mode happenings lead mid
  opening : ∃ b rest, seen = b :: rest ∧ Byte.opensFrame b = true ∧
    mid.step b = Phase.begin traffic b
  passes : mid.Passes seen phase

/-- What a receiver holds is nothing or the frame that it is within. -/
def Tracked (traffic : Traffic) (mode : CheckMode) (happenings : List (Nat × Happening))
    (past : Bytes) (phase : Phase) : Prop :=
  ∃ seen, phase.Holds traffic seen ∧
    (seen ≠ [] → ∃ mid, Within traffic mode happenings past seen mid phase)

variable {traffic : Traffic} {mode : CheckMode} {happenings : List (Nat × Happening)}
  {past front seen : Bytes} {receiver mid : Receiver} {phase : Phase} {b x : UInt8}

lemma Tracked.of_holds_nil (h : phase.Holds traffic []) :
    Tracked traffic mode happenings past phase :=
  ⟨[], h, fun hne => absurd rfl hne⟩

namespace Chronicle

lemma follows (h : Chronicle traffic mode happenings past receiver) :
    receiver.Follows traffic mode past := by
  induction h with
  | start => exact follows_start
  | feed chunk _ ih => exact (ih.feed chunk).1
  | reset _ ih => exact ih.reset

/-- Bytes that pass are taken, and nothing happens. -/
lemma passes (h : Chronicle traffic mode happenings past receiver)
    (hpasses : receiver.Passes front phase) :
    Chronicle traffic mode happenings (past ++ front) (receiver.inPhase phase) := by
  have hfeed := h.feed front
  rw [Passes] at hpasses
  rw [hpasses] at hfeed
  simpa using hfeed

/-- One silent byte. -/
lemma tracked_of_silent (h : Chronicle traffic mode happenings past receiver)
    (htracked : Tracked traffic mode happenings past receiver.phase)
    (hstep : receiver.step b = .silent phase) :
    Tracked traffic mode happenings (past ++ [b]) phase := by
  have hfollows := h.follows
  obtain ⟨seen, hholds, hwithin⟩ := htracked
  have hsilent := hstep
  rw [step, hfollows.traffic_eq, hfollows.mode_eq] at hsilent
  rcases Phase.holds_of_silent hholds hsilent with
    ⟨hne, hnext⟩ | ⟨hclosed, hphase, hb, hnext⟩ | hnext
  · -- the frame goes on
    obtain ⟨mid, ⟨lead, rfl, hmid⟩, ⟨c, rest, rfl, hc, hbegin⟩, hpasses⟩ := hwithin hne
    have hreceiver : mid.inPhase receiver.phase = receiver := by
      have hmidFollows := hmid.follows
      rw [inPhase, hmidFollows.traffic_eq, hmidFollows.mode_eq, ← hfollows.traffic_eq,
        ← hfollows.mode_eq]
    refine ⟨_, hnext, fun _ => ⟨mid, ⟨lead, List.append_assoc .., hmid⟩,
      ⟨c, rest ++ [b], rfl, hc, hbegin⟩, hpasses.append (.singleton ?_)⟩⟩
    rw [hreceiver]
    exact hstep
  · -- a frame begins
    have hbegin := step_opensFrame_of_not_isOpen hclosed hphase hb
    rw [hfollows.traffic_eq] at hbegin
    exact ⟨[b], hnext, fun _ => ⟨receiver, ⟨past, rfl, h⟩, ⟨b, [], rfl, hb, hbegin⟩,
      .singleton hstep⟩⟩
  · exact .of_holds_nil hnext

lemma tracked_of_passes (h : Chronicle traffic mode happenings past receiver)
    (htracked : Tracked traffic mode happenings past receiver.phase)
    (hpasses : receiver.Passes front phase) :
    Tracked traffic mode happenings (past ++ front) phase := by
  induction front generalizing past receiver with
  | nil =>
      have hphase : receiver.phase = phase := congrArg (fun fed => fed.receiver.phase) hpasses
      rw [List.append_nil, ← hphase]
      exact htracked
  | cons b rest ih =>
      obtain ⟨next, hstep, hrest⟩ := hpasses.exists_step
      rw [show past ++ b :: rest = past ++ [b] ++ rest by simp]
      exact ih (h.passes (.singleton hstep)) (h.tracked_of_silent htracked hstep) hrest

/-- **A receiver holds nothing or the frame that it is within**, whatever use it is in. -/
theorem tracked (h : Chronicle traffic mode happenings past receiver) :
    Tracked traffic mode happenings past receiver.phase := by
  induction h with
  | start => exact .of_holds_nil .idle
  | @feed happenings past mid chunk h ih =>
      cases hreport : (mid.feed chunk).report? with
      | none =>
          have hpasses := passes_of_report_eq_none hreport
          rw [Option.map_none, Option.toList_none, List.append_nil, taken_feed_of_none hreport,
            List.take_length]
          exact h.tracked_of_passes ih hpasses
      | some report =>
          obtain ⟨-, -, seen, hseen, hholds⟩ := h.follows.feed_of_report hreport
          obtain rfl := List.suffix_nil.mp hseen
          exact .of_holds_nil hholds
  | reset => exact .of_holds_nil .idle

end Chronicle

/-! ## What the bytes of a frame say -/

/-- Some word begins with these bytes. -/
def Begins (traffic : Traffic) (mode : CheckMode) (seen : Bytes) : Prop :=
  ∃ frame more, Frame.WireWord traffic mode frame (seen ++ more)

/-- The two digits of the station stand right behind the opening byte. -/
def Names (seen : Bytes) (station : Station) : Prop :=
  ∃ opening field rest, seen = opening :: (field ++ rest) ∧ station.Spelling field

/-- What comes next stands in the place of a check byte. -/
def AtCheckByte (seen : Bytes) : Prop :=
  ∃ frame body, Frame.Body frame body ∧ seen = Byte.stx :: body

/-- What comes next stands behind the fifth digit of a value. -/
def BehindFiveDigits (seen : Bytes) : Prop :=
  ∃ target front sign digits, Front target front ∧ Byte.isSign sign = true ∧
    Decimal.AllDigits digits ∧ digits.length = 5 ∧ seen = Byte.stx :: (front ++ sign :: digits)

/-! ### The station -/

lemma names_iff {named station : Station} {a rest : Bytes} (opening : UInt8)
    (ha : named.Spelling a) : Names (opening :: (a ++ rest)) station ↔ named = station := by
  constructor
  · rintro ⟨other, field, more, heq, hfield⟩
    obtain ⟨rfl, -⟩ := List.append_inj (List.cons.inj heq).2
      (ha.length_eq.trans hfield.length_eq.symm)
    exact Except.ok.inj (ha.ofInt_eq.symm.trans hfield.ofInt_eq)
  · rintro rfl
    exact ⟨opening, a, rest, rfl, ha⟩

lemma not_names_of_length {opening : UInt8} {rest : Bytes} {station : Station}
    (h : rest.length < 2) : ¬ Names (opening :: rest) station := by
  rintro ⟨other, field, more, heq, hfield⟩
  have hlength := hfield.length_eq
  rw [(List.cons.inj heq).2, List.length_append] at h
  omega

/-- A sign behind the opening byte is no digit of a station. -/
lemma not_names_of_sign {opening sign : UInt8} {rest : Bytes} {station : Station}
    (h : Byte.isSign sign = true) : ¬ Names (opening :: sign :: rest) station := by
  rintro ⟨other, field, more, heq, hfield⟩
  obtain ⟨y, z, rfl⟩ := List.length_eq_two.mp hfield.length_eq
  obtain rfl : sign = y := (List.cons.inj (List.cons.inj heq).2).1
  have hdigit := hfield.denotes.allDigits sign List.mem_cons_self
  rw [Byte.isSign_of_isDigit hdigit] at h
  cases h

lemma names_body_iff {frame : Frame} {body : Bytes} {station : Station}
    (hbody : frame.Body body) :
    frame.station? = some station ↔ Names (Byte.stx :: body) station := by
  cases hbody with
  | read ha hp =>
      rw [List.append_assoc, names_iff _ ha]
      exact Option.some_inj
  | write ha hp hv =>
      rw [List.append_assoc, List.append_assoc, names_iff _ ha]
      exact Option.some_inj
  | value hv => exact iff_of_false nofun (not_names_of_sign hv.isSign)

/-- **A phase knows the station that its bytes name**, and no other. -/
lemma station?_eq_some_iff (hholds : phase.Holds traffic seen) (station : Station) :
    phase.station? = some station ↔ Names seen station := by
  cases hholds with
  | address ha hlength => exact iff_of_false nofun (not_names_of_length hlength)
  | parameter ha hp hlength => exact Option.some_inj.trans (names_iff _ ha).symm
  | terminator ha hp => exact Option.some_inj.trans (names_iff _ ha).symm
  | value hfront hsign hdigits hlength =>
      cases hfront with
      | none => exact iff_of_false nofun (not_names_of_sign hsign)
      | some ha hp =>
          rw [List.append_assoc]
          exact Option.some_inj.trans (names_iff _ ha).symm
  | checksum hbody => exact names_body_iff hbody
  | selectAddress hcommands ha hlength => exact iff_of_false nofun (not_names_of_length hlength)
  | @selectTerminator named a hcommands ha =>
      rw [← List.append_nil a]
      exact Option.some_inj.trans (names_iff _ ha).symm
  | _ => exact iff_of_false nofun (by rintro ⟨opening, field, rest, ⟨⟩, -⟩)

/-! ### Beginnings of words -/

lemma Begins.of_append (more : Bytes) (h : Begins traffic mode (seen ++ more)) :
    Begins traffic mode seen := by
  obtain ⟨frame, rest, hword⟩ := h
  exact ⟨frame, more ++ rest, by rwa [← List.append_assoc]⟩

lemma begins_of_body {frame : Frame} {body : Bytes} (hbody : frame.Body body) :
    Begins traffic mode (Byte.stx :: body) :=
  ⟨frame, [checkByte mode body], .checked hbody⟩

/-- Digits can be made as many as a field has. -/
lemma exists_filled {digits : Bytes} {width : Nat} (hdigits : Decimal.AllDigits digits)
    (hlength : digits.length ≤ width) :
    ∃ more, Decimal.AllDigits (digits ++ more) ∧ (digits ++ more).length = width := by
  refine ⟨List.replicate (width - digits.length) (Byte.ofDigit 0), ?_, ?_⟩
  · rw [Decimal.allDigits_append]
    refine ⟨hdigits, fun b hb => ?_⟩
    rw [List.eq_of_mem_replicate hb]
    exact Byte.isDigit_ofDigit 0
  · rw [List.length_append, List.length_replicate]
    omega

lemma begins_of_parameter {station : Station} {a p : Bytes} (ha : station.Spelling a)
    (hp : Decimal.AllDigits p) (hlength : p.length ≤ 3) :
    Begins traffic mode (Byte.stx :: (a ++ p)) := by
  obtain ⟨more, hdigits, hthree⟩ := exists_filled hp hlength
  obtain ⟨parameter, -, hparameter⟩ := Parameter.ofInt_number hthree hdigits
  refine .of_append (more ++ [Byte.etx]) ?_
  have hbegins : Begins traffic mode (Byte.stx :: (a ++ (p ++ more) ++ [Byte.etx])) :=
    begins_of_body (.read ha hparameter)
  simpa using hbegins

lemma begins_of_address {a : Bytes} (ha : Decimal.AllDigits a) (hlength : a.length ≤ 2) :
    Begins traffic mode (Byte.stx :: a) := by
  obtain ⟨more, hdigits, htwo⟩ := exists_filled ha hlength
  obtain ⟨station, -, hstation⟩ := Station.ofInt_number htwo hdigits
  have hbegins : Begins traffic mode (Byte.stx :: (a ++ more ++ [])) :=
    begins_of_parameter hstation Decimal.allDigits_nil (by simp)
  rw [List.append_nil] at hbegins
  exact .of_append more hbegins

lemma begins_of_value {target : Option (Station × Parameter)} {front digits : Bytes}
    {sign : UInt8} (hfront : Front target front) (hsign : Byte.isSign sign = true)
    (hdigits : Decimal.AllDigits digits) (hlength : digits.length ≤ 5) :
    Begins traffic mode (Byte.stx :: (front ++ sign :: digits)) := by
  obtain ⟨more, hmore, hfive⟩ := exists_filled hdigits hlength
  obtain ⟨value, -, hvalue⟩ := Value.ofInt_signed hsign hmore (by omega) (Nat.le_of_eq hfive)
  refine .of_append (more ++ [Byte.etx]) ?_
  have hbegins : Begins traffic mode
      (Byte.stx :: (front ++ sign :: (digits ++ more) ++ [Byte.etx])) :=
    begins_of_body (hfront.body hvalue)
  simpa using hbegins

lemma begins_of_selectAddress {a : Bytes} (hcommands : traffic = .commands)
    (ha : Decimal.AllDigits a) (hlength : a.length ≤ 2) :
    Begins traffic mode (Byte.eot :: a) := by
  obtain ⟨more, hdigits, htwo⟩ := exists_filled ha hlength
  obtain ⟨station, -, hstation⟩ := Station.ofInt_number htwo hdigits
  refine ⟨.request (.select station), more ++ [Byte.enq], ?_⟩
  have hword : Frame.WireWord traffic mode (.request (.select station))
      (Byte.eot :: (a ++ more) ++ [Byte.enq]) := .select hcommands hstation
  simpa using hword

/-- **What an open phase holds is the beginning of a word.** -/
lemma begins_of_holds (hholds : phase.Holds traffic seen) (hopen : phase.isOpen = true) :
    Begins traffic mode seen := by
  cases hholds with
  | address ha hlength => exact begins_of_address ha (Nat.le_of_lt hlength)
  | parameter ha hp hlength => exact begins_of_parameter ha hp (Nat.le_of_lt hlength)
  | terminator ha hp =>
      exact begins_of_parameter ha hp.denotes.allDigits (Nat.le_of_eq hp.length_eq)
  | value hfront hsign hdigits hlength => exact begins_of_value hfront hsign hdigits hlength
  | checksum hbody => exact begins_of_body hbody
  | selectAddress hcommands ha hlength =>
      exact begins_of_selectAddress hcommands ha (Nat.le_of_lt hlength)
  | selectTerminator hcommands ha =>
      exact begins_of_selectAddress hcommands ha.denotes.allDigits (Nat.le_of_eq ha.length_eq)
  | _ => cases hopen

/-! ### The fault -/

namespace Within

lemma begin_eq (h : Within traffic mode happenings past seen mid phase) :
    ∀ c ∈ seen.head?, mid.step c = Phase.begin mid.traffic c := by
  obtain ⟨lead, -, hmid⟩ := h.chronicle
  obtain ⟨b, rest, rfl, -, hbegin⟩ := h.opening
  rintro c ⟨⟩
  rw [hmid.follows.traffic_eq]
  exact hbegin

/-- Behind an STX the body of the frame passes. -/
lemma passes_body {body : Bytes}
    (h : Within traffic mode happenings past (Byte.stx :: body) mid phase) :
    (mid.inPhase (.address [] .empty)).Passes body phase := by
  obtain ⟨next, hstep, hpasses⟩ := h.passes.exists_step
  obtain rfl : .address [] .empty = next :=
    Step.silent.inj ((h.begin_eq _ rfl).symm.trans hstep)
  exact hpasses

lemma eq_checksum (h : Within traffic mode happenings past seen mid phase)
    (hat : AtCheckByte seen) : ∃ body frame, phase = .checksum body frame := by
  obtain ⟨frame, body, hbody, rfl⟩ := hat
  exact ⟨body, frame, h.passes_body.unique (Receiver.passes_body mid hbody)⟩

lemma eq_value (h : Within traffic mode happenings past seen mid phase)
    (hbehind : BehindFiveDigits seen) :
    ∃ body target negative field, phase = .value body target negative field ∧ field.count = 5 := by
  obtain ⟨target, front, sign, digits, hfront, hsign, hdigits, hfive, rfl⟩ := hbehind
  have hfrontLength := hfront.length_le
  have hdigitsPass : (mid.inPhase (.value (front ++ [sign]) target (sign == Byte.minus)
      (.ofDigits []))).Passes digits
      (.value (front ++ [sign] ++ digits) target (sign == Byte.minus) (.ofDigits digits)) :=
    passes_digits mid hdigits (by simp [hfive]) (by simp; omega)
  have hvalue := (passes_sign mid hfront hsign).append hdigitsPass
  rw [List.append_assoc] at hvalue
  exact ⟨_, _, _, _, h.passes_body.unique hvalue, by simpa using hfive⟩

end Within

lemma blame_eq_checksum_iff (h : Within traffic mode happenings past seen mid phase)
    (hholds : phase.Holds traffic seen) (x : UInt8) :
    phase.blame x = .checksum ↔ AtCheckByte seen := by
  constructor
  · intro hblame
    cases hholds with
    | checksum hbody => exact ⟨_, _, hbody, rfl⟩
    | value =>
        rw [Phase.blame] at hblame
        split_ifs at hblame
        exact absurd hblame (Byte.misfit_ne x).1
    | _ => exact absurd hblame (Byte.misfit_ne x).1
  · intro hat
    obtain ⟨body, frame, rfl⟩ := h.eq_checksum hat
    rfl

lemma blame_eq_overflow_iff (h : Within traffic mode happenings past seen mid phase)
    (hholds : phase.Holds traffic seen) (x : UInt8) :
    phase.blame x = .overflow ↔ BehindFiveDigits seen ∧ Byte.isDigit x = true := by
  constructor
  · intro hblame
    cases hholds with
    | checksum => cases hblame
    | value hfront hsign hdigits hlength =>
        rw [Phase.blame] at hblame
        split_ifs at hblame with hsixth
        · exact ⟨⟨_, _, _, _, hfront, hsign, hdigits, hsixth.1, rfl⟩, hsixth.2⟩
        · exact absurd hblame (Byte.misfit_ne x).2
    | _ => exact absurd hblame (Byte.misfit_ne x).2
  · rintro ⟨hbehind, hdigit⟩
    obtain ⟨body, target, negative, field, rfl, hcount⟩ := h.eq_value hbehind
    exact if_pos ⟨hcount, hdigit⟩

/-- Elsewhere the byte has no place. -/
lemma blame_eq_misfit (h : Within traffic mode happenings past seen mid phase)
    (hholds : phase.Holds traffic seen) (hcheck : ¬ AtCheckByte seen)
    (hsixth : ¬ (BehindFiveDigits seen ∧ Byte.isDigit x = true)) :
    phase.blame x = Byte.misfit x := by
  rw [← blame_eq_overflow_iff h hholds x] at hsixth
  rw [← blame_eq_checksum_iff h hholds x] at hcheck
  cases phase with
  | checksum => exact absurd rfl hcheck
  | value =>
      rw [Phase.blame] at hsixth ⊢
      split_ifs at hsixth ⊢
      · exact absurd rfl hsixth
      · rfl
  | _ => rfl

/-! ## Every defect -/

/-- What there is to say of a defect of which the frame was `seen` when `x` broke it. -/
structure Breaks (traffic : Traffic) (mode : CheckMode) (seen : Bytes) (x : UInt8)
    (defect : Defect) : Prop where
  begins : Begins traffic mode seen
  offends : ¬ Begins traffic mode (seen ++ [x])
  /-- Behind an EOT there is a digit. -/
  digit_of_eot : ∀ rest, seen = Byte.eot :: rest →
    traffic = .commands ∧ ∃ d more, rest = d :: more ∧ Byte.isDigit d = true
  station?_iff : ∀ station, defect.station? = some station ↔ Names seen station
  station?_of_reply : ∀ opening sign rest, seen = opening :: sign :: rest →
    Byte.isSign sign = true → defect.station? = none
  checksum_iff : defect.fault = .checksum ↔ AtCheckByte seen
  overflow_iff : defect.fault = .overflow ↔ BehindFiveDigits seen ∧ Byte.isDigit x = true
  misfit : ¬ AtCheckByte seen → ¬ (BehindFiveDigits seen ∧ Byte.isDigit x = true) →
    defect.fault = if Byte.isControl x then .framing else .invalidDigit

lemma station?_of_defect {defect : Defect} (hholds : phase.Holds traffic seen)
    (h : (phase.step traffic mode x).defect? = some defect) : defect.station? = phase.station? := by
  have hstepped := Phase.step_of_isOpen mode x hholds (Phase.isOpen_of_defect h)
  cases hstep : phase.step traffic mode x with
  | silent next =>
      rw [hstep] at h
      cases h
  | report report next =>
      rw [hstep] at h hstepped
      cases hstepped with
      | complete => cases h
      | broken => cases h; rfl
  | leave left =>
      rw [hstep] at h hstepped
      cases hstepped with
      | interrupted => cases h; rfl

lemma digit_of_eot {rest : Bytes} (hholds : phase.Holds traffic (Byte.eot :: rest))
    (hopen : phase.isOpen = true) :
    traffic = .commands ∧ ∃ d more, rest = d :: more ∧ Byte.isDigit d = true := by
  have hdigit : ∀ a : Bytes, Decimal.AllDigits a → a ≠ [] →
      ∃ d more, a = d :: more ∧ Byte.isDigit d = true := by
    intro a ha hne
    obtain ⟨d, more, rfl⟩ := List.exists_cons_of_ne_nil hne
    exact ⟨d, more, rfl, ha d List.mem_cons_self⟩
  cases hholds with
  | selectAddress hcommands ha hlength =>
      refine ⟨hcommands, hdigit _ ha ?_⟩
      rintro rfl
      cases hopen
  | selectTerminator hcommands ha =>
      exact ⟨hcommands, hdigit _ ha.denotes.allDigits
        (List.length_pos_iff.mp (by rw [ha.length_eq]; decide))⟩

/-- No word goes on with a byte that breaks the frame: the receiver in front of the frame would have
accepted it. -/
lemma Within.offends {defect : Defect}
    (h : Within traffic mode happenings past seen mid phase)
    (hdefect : (phase.step traffic mode x).defect? = some defect) :
    ¬ Begins traffic mode (seen ++ [x]) := by
  rintro ⟨frame, more, hword⟩
  obtain ⟨lead, -, hmid⟩ := h.chronicle
  obtain ⟨htraffic, hmode, -⟩ := hmid.follows
  rw [List.append_assoc, ← htraffic, ← hmode] at hword
  have hfeed := feed_wireWord mid hword ?_
  · rw [h.passes.feed_append] at hfeed
    have hreport := congrArg Fed.report? hfeed
    have hstep : ((mid.inPhase phase).step x).defect? = some defect := by
      rw [step, traffic_inPhase, mode_inPhase, htraffic, hmode]
      exact hdefect
    cases hcase : (mid.inPhase phase).step x with
    | silent next =>
        rw [hcase] at hstep
        cases hstep
    | report report next =>
        rw [hcase] at hstep
        rw [List.singleton_append, feed_cons_of_report hcase] at hreport
        cases hreport
        cases hstep
    | leave left =>
        rw [List.singleton_append, feed_cons_of_leave hcase] at hreport
        cases hreport
  · obtain ⟨b, rest, rfl, -⟩ := h.opening
    exact h.begin_eq

lemma Within.breaks {defect : Defect} (h : Within traffic mode happenings past seen mid phase)
    (hholds : phase.Holds traffic seen)
    (hdefect : (phase.step traffic mode x).defect? = some defect) :
    Breaks traffic mode seen x defect := by
  have hopen := Phase.isOpen_of_defect hdefect
  have hfault : defect.fault = phase.blame x := Phase.blames_step mode x hholds defect hdefect
  have hstation : ∀ station, defect.station? = some station ↔ Names seen station := by
    intro station
    rw [station?_of_defect hholds hdefect]
    exact station?_eq_some_iff hholds station
  refine ⟨begins_of_holds hholds hopen, h.offends hdefect, ?_, hstation, ?_, ?_, ?_, ?_⟩
  · rintro rest rfl
    exact digit_of_eot hholds hopen
  · rintro opening sign rest rfl hsign
    rw [Option.eq_none_iff_forall_ne_some]
    intro station hsome
    exact not_names_of_sign hsign ((hstation station).mp hsome)
  · rw [hfault]
    exact blame_eq_checksum_iff h hholds x
  · rw [hfault]
    exact blame_eq_overflow_iff h hholds x
  · intro hcheck hsixth
    rw [hfault, blame_eq_misfit h hholds hcheck hsixth, Byte.misfit]

/-- An EOT that is taken silently leaves no open frame behind. -/
lemma isOpen_of_silent_eot (hholds : receiver.phase.Holds receiver.traffic seen)
    (hstep : receiver.step Byte.eot = .silent phase) : phase.isOpen = false := by
  cases hopen : receiver.phase.isOpen with
  | true =>
      obtain ⟨fault, hleave⟩ := Phase.step_of_opensFrame receiver.mode hholds hopen
        (show Byte.opensFrame Byte.eot = true from rfl)
      cases hstep.symm.trans hleave
  | false =>
      by_cases hskip : receiver.phase = .skippingCheck
      · rw [step, hskip] at hstep
        cases hstep
        rfl
      · rw [step_opensFrame_of_not_isOpen hopen hskip rfl] at hstep
        cases htraffic : receiver.traffic with
        | commands =>
            rw [htraffic] at hstep
            cases hstep
            rfl
        | replies =>
            rw [htraffic] at hstep
            cases hstep

/-- The byte behind an EOT that was taken breaks nothing. -/
lemma Follows.taken_eq_zero_of_eot {defect : Defect} (h : receiver.Follows traffic mode past)
    (b : UInt8) (hreport : (receiver.feed [Byte.eot, b]).report? = some (.defect defect)) :
    (receiver.feed [Byte.eot, b]).taken = 0 := by
  obtain ⟨front, x, rest, phase, hbytes, hpasses, -, hdefect, htaken⟩ := h.exists_break hreport
  rcases front with _ | ⟨c, tail⟩
  · obtain ⟨rfl, -⟩ := List.cons.inj hbytes
    exact htaken
  · obtain ⟨rfl, hrest⟩ := List.cons.inj hbytes
    obtain rfl : tail = [] := by
      rcases tail with _ | ⟨c, tail⟩
      · rfl
      · simp at hrest
    obtain ⟨htraffic, -, seen, -, hholds⟩ := h
    rw [← htraffic] at hholds
    obtain ⟨next, hstep, hnil⟩ := hpasses.exists_step
    have hclosed := isOpen_of_silent_eot hholds hstep
    rw [show next = phase from congrArg (fun fed => fed.receiver.phase) hnil] at hclosed
    rw [Phase.isOpen_of_defect hdefect] at hclosed
    cases hclosed

/-- **Every defect belongs to the frame under way.**  Whatever use a receiver is in, a call that
tells of a defect has been silent up to the byte that broke a frame; the receiver is within that
frame then, and all that it tells is a matter of its bytes and of this byte.  The byte is left if it
is an STX or an EOT, and taken otherwise.  An EOT and the byte behind it bring no defect, unless the
EOT breaks a frame; if that byte is no digit, none comes of a frame that the EOT would open. -/
theorem Chronicle.breaks_of_defect (h : Chronicle traffic mode happenings past receiver) :
    (∀ bytes defect, (receiver.feed bytes).report? = some (.defect defect) →
      ∃ front x rest seen mid phase, bytes = front ++ x :: rest ∧ receiver.Passes front phase ∧
        Within traffic mode happenings (past ++ front) seen mid phase ∧
        Breaks traffic mode seen x defect ∧
        (receiver.feed bytes).taken
          = if x = Byte.stx ∨ x = Byte.eot then front.length else front.length + 1) ∧
      ∀ b defect, (receiver.feed [Byte.eot, b]).report? = some (.defect defect) →
        (receiver.feed [Byte.eot, b]).taken = 0 := by
  refine ⟨fun bytes defect hreport => ?_,
    fun b defect hreport => h.follows.taken_eq_zero_of_eot b hreport⟩
  obtain ⟨front, x, rest, phase, hbytes, hpasses, -, hdefect, htaken⟩ :=
    h.follows.exists_break hreport
  obtain ⟨seen, hholds, hwithin⟩ := h.tracked_of_passes h.tracked hpasses
  obtain ⟨mid, hmid⟩ := hwithin (hholds.ne_nil (Phase.isOpen_of_defect hdefect))
  exact ⟨front, x, rest, seen, mid, phase, hbytes, hpasses, hmid, hmid.breaks hholds hdefect,
    htaken⟩

/-- A frame that named a station is broken by the STX of the next, which is broken in front of its
second digit: its defect names no station. -/
theorem Chronicle.breaks_of_defect_behind_defect :
    let receiver := ((Receiver.start .commands .plain).feed [0x02, 0x31, 0x32, 0x02]).receiver
    let stale : Defect := ⟨.framing, some ⟨12, by decide⟩⟩
    Chronicle .commands .plain [(3, .report (.defect stale))] [0x02, 0x31, 0x32] receiver ∧
      (receiver.feed [0x02, 0x33, 0x78]).report? = some (.defect ⟨.invalidDigit, none⟩) ∧
      ∃ front x rest seen, ([0x02, 0x33, 0x78] : Bytes) = front ++ x :: rest ∧
        Breaks .commands .plain seen x ⟨.invalidDigit, none⟩ := by
  intro receiver stale
  have hchronicle : Chronicle .commands .plain [(3, .report (.defect stale))] [0x02, 0x31, 0x32]
      receiver := .feed [0x02, 0x31, 0x32, 0x02] .start
  have hreport : (receiver.feed [0x02, 0x33, 0x78]).report?
      = some (.defect ⟨.invalidDigit, none⟩) := by decide
  obtain ⟨front, x, rest, seen, -, -, hbytes, -, -, hbreaks, -⟩ :=
    hchronicle.breaks_of_defect.1 _ _ hreport
  exact ⟨hchronicle, hreport, front, x, rest, seen, hbytes, hbreaks⟩

end Receiver

end FieldBus
