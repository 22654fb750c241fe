import FieldBus.Proofs.Held
import Mathlib.Data.List.Basic

/-!
# What a receiver accepts

A receiver between frames accepts exactly the words of its direction, each behind any noise: one
feeding that takes everything ends with a frame if and only if what was fed is noise and then a
word of that frame (**`Receiver.feed_eq_frame_iff`**).

The two directions have little in common.  That a word is accepted is a walk through its fields,
one `Passes` lemma for each (`feed_wireWord`).  That nothing else is accepted comes from what the
receiver holds: once a frame has begun, the held bytes grow with every byte, and when the frame is
complete they are a word of it (`wireWord_of_feed`).
-/

namespace FieldBus

namespace Receiver

variable {receiver : Receiver} {frame : Frame}

/-! ## Words are accepted -/

/-- The first digit of the station behind an STX. -/
lemma step_address_nil (receiver : Receiver) {b : UInt8} (hb : Byte.isDigit b = true) :
    (receiver.inPhase (.address [] .empty)).step b = .silent (.address [b] (.ofDigits [b])) := by
  simp only [step, phase_inPhase, Phase.step, Byte.isSign_of_isDigit hb, Byte.digit_of_isDigit hb]
  rfl

/-- The first digit of the station behind an EOT. -/
lemma step_selectAddress_nil (receiver : Receiver) {b : UInt8} (hb : Byte.isDigit b = true) :
    (receiver.inPhase (.selectAddress .empty)).step b
      = .silent (.selectAddress (.ofDigits [b])) := by
  simp only [step, phase_inPhase, Phase.step, Byte.digit_of_isDigit hb]
  rfl

lemma passes_station (receiver : Receiver) {station : Station} {a : Bytes}
    (ha : station.Spelling a) :
    (receiver.inPhase (.address [] .empty)).Passes a (.parameter a station .empty) := by
  have hdigits := ha.denotes.allDigits
  have hof := ha.ofInt_eq
  obtain ⟨x, y, rfl⟩ := List.length_eq_two.mp ha.length_eq
  simp only [Decimal.allDigits_cons, Decimal.allDigits_nil, and_true] at hdigits
  obtain ⟨hx, hy⟩ := hdigits
  have hsecond : Numeral.push (.ofDigits [x]) (y.toNat - 0x30) = .ofDigits [x, y] :=
    Numeral.push_ofDigits [x] y
  refine .cons _ (step_address_nil receiver hx) (.singleton ?_)
  simp only [step, phase_inPhase, Phase.step, Byte.isSign_of_isDigit hy,
    Byte.digit_of_isDigit hy, hsecond]
  rw [if_neg (by simp), if_pos (by simp), Numeral.value_ofDigits, hof]
  rfl

lemma passes_parameter (receiver : Receiver) {station : Station} {parameter : Parameter}
    {a p : Bytes} (ha : a.length = 2) (hp : parameter.Spelling p) :
    (receiver.inPhase (.parameter a station .empty)).Passes p
      (.terminator (a ++ p) station parameter) := by
  have hdigits := hp.denotes.allDigits
  have hof := hp.ofInt_eq
  obtain ⟨x, y, z, rfl⟩ := List.length_eq_three.mp hp.length_eq
  simp only [Decimal.allDigits_cons, Decimal.allDigits_nil, and_true] at hdigits
  obtain ⟨hx, hy, hz⟩ := hdigits
  have hsecond : Numeral.push (.ofDigits [x]) (y.toNat - 0x30) = .ofDigits [x, y] :=
    Numeral.push_ofDigits [x] y
  have hthird : Numeral.push (.ofDigits [x, y]) (z.toNat - 0x30) = .ofDigits [x, y, z] :=
    Numeral.push_ofDigits [x, y] z
  refine .cons (.parameter (a ++ [x]) station (.ofDigits [x])) ?_
    (.cons (.parameter (a ++ [x, y]) station (.ofDigits [x, y])) ?_ (.singleton ?_))
  · simp only [step, phase_inPhase, Phase.step, Byte.digit_of_isDigit hx]
    rw [if_neg (by simp), Phase.extend_of_lt (by omega)]
    rfl
  · simp only [step, phase_inPhase, Phase.step, Byte.digit_of_isDigit hy, hsecond]
    rw [if_neg (by simp), Phase.extend_of_lt (by simp; omega)]
    simp
  · simp only [step, phase_inPhase, Phase.step, Byte.digit_of_isDigit hz, hthird]
    rw [if_pos (by simp), Numeral.value_ofDigits, hof, Phase.complete,
      Phase.extend_of_lt (by simp; omega)]
    simp

lemma passes_front (receiver : Receiver) {station : Station} {parameter : Parameter}
    {a p : Bytes} (ha : station.Spelling a) (hp : parameter.Spelling p) :
    (receiver.inPhase (.address [] .empty)).Passes (a ++ p)
      (.terminator (a ++ p) station parameter) :=
  (passes_station receiver ha).append (passes_parameter receiver ha.length_eq hp)

lemma passes_digits (receiver : Receiver) {target : Option (Station × Parameter)}
    {body held digits : Bytes} {negative : Bool} (hdigits : Decimal.AllDigits digits)
    (hlength : held.length + digits.length ≤ 5) (hbody : body.length + digits.length ≤ 12) :
    (receiver.inPhase (.value body target negative (.ofDigits held))).Passes digits
      (.value (body ++ digits) target negative (.ofDigits (held ++ digits))) := by
  -- five digits are the most that the field takes, twelve bytes the most that the body has
  induction digits generalizing body held with
  | nil => simp [Passes, feed]
  | cons b rest ih =>
      obtain ⟨hb, hrest⟩ := Decimal.allDigits_cons.mp hdigits
      rw [List.length_cons] at hlength hbody
      have hetx : b ≠ Byte.etx := by
        rintro rfl
        cases hb
      have htail := @ih (body ++ [b]) (held ++ [b]) hrest
        (by rw [List.length_append, List.length_singleton]; omega)
        (by rw [List.length_append, List.length_singleton]; omega)
      rw [List.append_assoc, List.append_assoc] at htail
      refine .cons _ ?_ htail
      simp only [step, phase_inPhase, Phase.step, Byte.digit_of_isDigit hb]
      rw [if_neg hetx, if_neg (by simp; omega), Phase.extend_of_lt (by omega),
        Numeral.push_ofDigits]

/-- A value behind the fields in front of it, from its sign to its ETX. -/
lemma passes_value (receiver : Receiver) {target : Option (Station × Parameter)}
    {front digits : Bytes} {sign : UInt8} {value : Value} (hfront : Front target front)
    (hv : value.Spelling sign digits) :
    (receiver.inPhase
        (.value (front ++ [sign]) target (sign == Byte.minus) .empty)).Passes
      (digits ++ [Byte.etx])
      (.checksum (front ++ sign :: digits ++ [Byte.etx]) (.ofTarget target value)) := by
  have hlength := hv.length_le
  have hfrontLength := hfront.length_le
  have hdigits : (receiver.inPhase
      (.value (front ++ [sign]) target (sign == Byte.minus) (.ofDigits []))).Passes digits
      (.value (front ++ [sign] ++ digits) target (sign == Byte.minus) (.ofDigits digits)) :=
    passes_digits receiver hv.allDigits (by simpa using hlength) (by simp; omega)
  rw [List.append_assoc, List.singleton_append] at hdigits
  exact hdigits.append (.singleton (Phase.step_value_etx hv (by simp; omega)))

lemma passes_sign (receiver : Receiver) {target : Option (Station × Parameter)} {front : Bytes}
    {sign : UInt8} (hfront : Front target front) (hsign : Byte.isSign sign = true) :
    (receiver.inPhase (.address [] .empty)).Passes (front ++ [sign])
      (.value (front ++ [sign]) target (sign == Byte.minus) .empty) := by
  cases hfront with
  | none =>
      refine .singleton ?_
      simp only [step, phase_inPhase, Phase.step]
      rw [if_pos ⟨rfl, hsign⟩]
      rfl
  | some ha hp =>
      have hetx : sign ≠ Byte.etx := by
        rintro rfl
        cases hsign
      refine (passes_front receiver ha hp).append (.singleton ?_)
      simp only [step, phase_inPhase, Phase.step]
      rw [if_neg hetx, if_pos hsign,
        Phase.extend_of_lt (by simp [ha.length_eq, hp.length_eq])]

lemma passes_signed (receiver : Receiver) {target : Option (Station × Parameter)}
    {front digits : Bytes} {sign : UInt8} {value : Value} (hfront : Front target front)
    (hv : value.Spelling sign digits) :
    (receiver.inPhase (.address [] .empty)).Passes (front ++ sign :: digits ++ [Byte.etx])
      (.checksum (front ++ sign :: digits ++ [Byte.etx]) (.ofTarget target value)) := by
  have h := (passes_sign receiver hfront hv.isSign).append (passes_value receiver hfront hv)
  have hbytes : front ++ [sign] ++ (digits ++ [Byte.etx])
      = front ++ sign :: digits ++ [Byte.etx] := by
    simp
  rwa [hbytes] at h

/-- From behind its STX to its ETX every body passes, and leaves its frame to be checked. -/
theorem passes_body (receiver : Receiver) {body : Bytes} (hbody : frame.Body body) :
    (receiver.inPhase (.address [] .empty)).Passes body (.checksum body frame) := by
  cases hbody with
  | read ha hp =>
      refine (passes_front receiver ha hp).append (.singleton ?_)
      simp only [step, phase_inPhase, Phase.step]
      rw [if_pos trivial, Phase.extend_of_lt (by simp [ha.length_eq, hp.length_eq])]
  | write ha hp hv => exact passes_signed receiver (.some ha hp) hv
  | value hv => exact passes_signed receiver .none hv

lemma passes_selectAddress (receiver : Receiver) {station : Station} {a : Bytes}
    (ha : station.Spelling a) :
    (receiver.inPhase (.selectAddress .empty)).Passes a (.selectTerminator station) := by
  have hdigits := ha.denotes.allDigits
  have hof := ha.ofInt_eq
  obtain ⟨x, y, rfl⟩ := List.length_eq_two.mp ha.length_eq
  simp only [Decimal.allDigits_cons, Decimal.allDigits_nil, and_true] at hdigits
  obtain ⟨hx, hy⟩ := hdigits
  have hsecond : Numeral.push (.ofDigits [x]) (y.toNat - 0x30) = .ofDigits [x, y] :=
    Numeral.push_ofDigits [x] y
  refine .cons _ (step_selectAddress_nil receiver hx) (.singleton ?_)
  simp only [step, phase_inPhase, Phase.step, Byte.digit_of_isDigit hy, hsecond]
  rw [if_pos (by simp), Numeral.value_ofDigits, hof]
  rfl

/-- **A word is accepted** wherever its first byte is treated as between frames. -/
theorem feed_wireWord (receiver : Receiver) {word : Bytes}
    (hword : frame.WireWord receiver.traffic receiver.mode word)
    (hbegin : ∀ b ∈ word.head?, receiver.step b = Phase.begin receiver.traffic b) :
    receiver.feed word = ⟨some (.frame frame), word.length, receiver.inPhase .idle⟩ := by
  cases hword with
  | @checked _ body hbody =>
      have hstx : receiver.step Byte.stx = .silent (.address [] .empty) := hbegin _ rfl
      have hpasses : receiver.Passes (Byte.stx :: body) (.checksum body frame) :=
        .cons _ hstx (passes_body receiver hbody)
      have hcheck : (receiver.inPhase (.checksum body frame)).step
          (checkByte receiver.mode body) = .report (.frame frame) .idle := by
        simp [step, Phase.step, checks]
      rw [Frame.checked, hpasses.feed_append, feed_cons_of_report hcheck, List.length_append]
      rfl
  | ack =>
      rw [feed_cons_of_report (hbegin _ rfl)]
      rfl
  | nak =>
      rw [feed_cons_of_report (hbegin _ rfl)]
      rfl
  | eot hreplies =>
      have heot := hbegin _ rfl
      rw [hreplies] at heot
      rw [feed_cons_of_report heot]
      rfl
  | @select station a hcommands ha =>
      have heot := hbegin _ rfl
      rw [hcommands] at heot
      have hpasses : receiver.Passes (Byte.eot :: a) (.selectTerminator station) :=
        .cons _ heot (passes_selectAddress receiver ha)
      have henq : (receiver.inPhase (.selectTerminator station)).step Byte.enq
          = .report (.frame (.request (.select station))) .idle := rfl
      rw [hpasses.feed_append, feed_cons_of_report henq, List.length_append]
      rfl

/-! ## Noise is passed over -/

/-- Behind an EOT among the commands, a byte that is no digit is treated as between frames. -/
lemma step_selectAddress_empty (receiver : Receiver) {b : UInt8} (hb : Byte.isDigit b = false) :
    (receiver.inPhase (.selectAddress .empty)).step b = Phase.begin receiver.traffic b := by
  simp only [step, phase_inPhase, Phase.step, Byte.digit_of_not_isDigit hb]
  rfl

/-- The phases in which noise leaves a receiver: between frames, or behind a lone EOT. -/
def Resting (phase : Phase) : Prop := phase = .idle ∨ phase = .selectAddress .empty

lemma step_of_resting (receiver : Receiver) {phase : Phase} {b : UInt8} (hphase : Resting phase)
    (hb : phase = .selectAddress .empty → Byte.isDigit b = false) :
    (receiver.inPhase phase).step b = Phase.begin receiver.traffic b := by
  rcases hphase with rfl | rfl
  · rfl
  · exact step_selectAddress_empty receiver (hb rfl)

lemma passes_noise (receiver : Receiver) {phase : Phase} {noise : Bytes} (hphase : Resting phase)
    (hhead : phase = .selectAddress .empty → ∀ b ∈ noise.head?, Byte.isDigit b = false)
    (hnoise : Noise receiver.traffic noise) :
    ∃ last, Resting last ∧ (receiver.inPhase phase).Passes noise last := by
  induction noise generalizing phase with
  | nil => exact ⟨phase, hphase, rfl⟩
  | cons b rest ih =>
      obtain ⟨⟨hstx, hack, hnak, heot⟩, hrest⟩ := noise_cons.mp hnoise
      have hstep := step_of_resting receiver hphase fun h => hhead h b rfl
      by_cases hb : b = Byte.eot
      · obtain ⟨hcommands, hnext⟩ := heot hb
        subst hb
        rw [hcommands] at hstep
        obtain ⟨last, hlast, hpasses⟩ := @ih (.selectAddress .empty) (.inr rfl)
          (fun _ => hnext) hrest
        exact ⟨last, hlast, .cons _ hstep hpasses⟩
      · simp only [Phase.begin, if_neg hstx, if_neg hb, if_neg hack, if_neg hnak] at hstep
        obtain ⟨last, hlast, hpasses⟩ := @ih .idle (.inl rfl) (by simp) hrest
        exact ⟨last, hlast, .cons _ hstep hpasses⟩

/-- The first byte of a word is no digit, so the noise in front of it stays noise. -/
lemma isDigit_head_wireWord {traffic : Traffic} {mode : CheckMode} {word : Bytes}
    (hword : frame.WireWord traffic mode word) : ∀ b ∈ word.head?, Byte.isDigit b = false := by
  cases hword <;> simp [Frame.checked] <;> rfl

lemma feed_noise_wireWord {noise word : Bytes} (hidle : receiver.phase = .idle)
    (hnoise : Noise receiver.traffic noise)
    (hword : frame.WireWord receiver.traffic receiver.mode word) :
    receiver.feed (noise ++ word)
      = ⟨some (.frame frame), (noise ++ word).length, receiver.inPhase .idle⟩ := by
  -- noise may end with an EOT, so the word need not find the receiver between frames
  obtain ⟨last, hlast, hpasses⟩ := passes_noise receiver (.inl rfl) (by simp) hnoise
  have hreceiver : receiver.inPhase .idle = receiver := by rw [← hidle, inPhase_phase]
  rw [hreceiver] at hpasses
  have hfeed := feed_wireWord (receiver.inPhase last) hword fun b hb =>
    step_of_resting receiver hlast fun _ => isDigit_head_wireWord hword b hb
  rw [hpasses.feed_append, hfeed, List.length_append]
  rfl

/-! ## Nothing else is accepted -/

/-- Within a frame: when it is complete, the bytes held and the bytes fed are a word of it. -/
lemma wireWord_of_feed (receiver : Receiver) {seen bytes : Bytes}
    (hholds : receiver.phase.Holds receiver.traffic seen) (hopen : receiver.phase.isOpen = true)
    (hreport : (receiver.feed bytes).report? = some (.frame frame))
    (htaken : (receiver.feed bytes).taken = bytes.length) :
    frame.WireWord receiver.traffic receiver.mode (seen ++ bytes) := by
  induction bytes generalizing receiver seen with
  | nil => simp [feed] at hreport
  | cons b rest ih =>
      have hstepped := Phase.step_of_isOpen receiver.mode b hholds hopen
      rw [← step] at hstepped
      cases hstep : receiver.step b with
      | silent next =>
          rw [feed_cons_of_silent hstep] at hreport htaken
          rw [hstep] at hstepped
          cases hstepped with
          | on hnextOpen hnext =>
              have hword := @ih (receiver.inPhase next) _ hnext hnextOpen hreport
                (Nat.succ_inj.mp htaken)
              simpa using hword
      | report report next =>
          rw [feed_cons_of_report hstep] at hreport htaken
          obtain rfl : report = .frame frame := Option.some.inj hreport
          obtain rfl : rest = [] := List.length_eq_zero_iff.mp (Nat.succ_inj.mp htaken.symm)
          rw [hstep] at hstepped
          cases hstepped with
          | complete hword => exact hword
      | leave defect =>
          rw [feed_cons_of_leave hstep] at hreport
          cases hreport

/-- What was fed splits into noise and a word of the frame. -/
def Splits (receiver : Receiver) (frame : Frame) (bytes : Bytes) : Prop :=
  ∃ noise word, bytes = noise ++ word ∧ Noise receiver.traffic noise ∧
    frame.WireWord receiver.traffic receiver.mode word

lemma Splits.of_wireWord {bytes : Bytes}
    (hword : frame.WireWord receiver.traffic receiver.mode bytes) :
    receiver.Splits frame bytes := by
  refine ⟨[], bytes, rfl, ?_, hword⟩
  cases receiver.traffic <;> simp [Noise]

/-- A byte that is noise in front of what follows is noise in front of a split. -/
lemma Splits.cons {b : UInt8} {bytes : Bytes} (h : receiver.Splits frame bytes)
    (hstx : b ≠ Byte.stx) (hack : b ≠ Byte.ack) (hnak : b ≠ Byte.nak)
    (heot : b = Byte.eot →
      receiver.traffic = .commands ∧ ∀ c ∈ bytes.head?, Byte.isDigit c = false) :
    receiver.Splits frame (b :: bytes) := by
  obtain ⟨noise, word, rfl, hnoise, hword⟩ := h
  refine ⟨b :: noise, word, rfl, noise_cons.mpr ⟨⟨hstx, hack, hnak, ?_⟩, hnoise⟩, hword⟩
  intro hb
  refine ⟨(heot hb).1, ?_⟩
  intro c hc
  refine (heot hb).2 c ?_
  rw [Option.mem_def] at hc ⊢
  rw [List.head?_append, hc]
  rfl

/-- A digit behind an EOT among the commands opens a select sequence. -/
lemma wireWord_of_feed_select {c : UInt8} {rest : Bytes} (hcommands : receiver.traffic = .commands)
    (hc : Byte.isDigit c = true)
    (hreport : ((receiver.inPhase (.selectAddress .empty)).feed (c :: rest)).report?
      = some (.frame frame))
    (htaken : ((receiver.inPhase (.selectAddress .empty)).feed (c :: rest)).taken
      = (c :: rest).length) :
    frame.WireWord receiver.traffic receiver.mode (Byte.eot :: c :: rest) := by
  rw [feed_cons_of_silent (step_selectAddress_nil receiver hc)] at hreport htaken
  exact wireWord_of_feed (receiver.inPhase (.selectAddress (.ofDigits [c])))
    (.selectAddress hcommands (by simp [hc]) (by simp)) rfl hreport (Nat.succ_inj.mp htaken)

/-- Between frames: what is fed up to a complete frame is noise and then a word of it. -/
lemma splits_of_feed {phase : Phase} {bytes : Bytes} (hphase : Resting phase)
    (hhead : phase = .selectAddress .empty → ∀ b ∈ bytes.head?, Byte.isDigit b = false)
    (hreport : ((receiver.inPhase phase).feed bytes).report? = some (.frame frame))
    (htaken : ((receiver.inPhase phase).feed bytes).taken = bytes.length) :
    receiver.Splits frame bytes := by
  induction bytes generalizing phase with
  | nil => simp [feed] at hreport
  | cons b rest ih =>
      have hstep := step_of_resting receiver hphase fun h => hhead h b rfl
      -- a report at this byte ends the feeding, so the byte is a word by itself
      have hword : ∀ {report : Report} {next : Phase},
          Phase.begin receiver.traffic b = .report report next →
          report = .frame frame ∧ rest = [] := by
        intro report next hbegin
        rw [feed_cons_of_report (hstep.trans hbegin)] at hreport htaken
        exact ⟨Option.some.inj hreport,
          List.length_eq_zero_iff.mp (Nat.succ_inj.mp htaken.symm)⟩
      by_cases hstx : b = Byte.stx
      · subst hstx
        rw [feed_cons_of_silent hstep] at hreport htaken
        exact .of_wireWord (wireWord_of_feed (receiver.inPhase (.address [] .empty))
          .address_nil rfl hreport (Nat.succ_inj.mp htaken))
      by_cases hack : b = Byte.ack
      · subst hack
        obtain ⟨hframe, rfl⟩ := hword rfl
        cases hframe
        exact .of_wireWord .ack
      by_cases hnak : b = Byte.nak
      · subst hnak
        obtain ⟨hframe, rfl⟩ := hword rfl
        cases hframe
        exact .of_wireWord .nak
      by_cases heot : b = Byte.eot
      · subst heot
        cases htraffic : receiver.traffic with
        | replies =>
            obtain ⟨hframe, rfl⟩ := hword (by rw [htraffic]; rfl)
            cases hframe
            exact .of_wireWord (.eot htraffic)
        | commands =>
            rw [htraffic] at hstep
            rw [feed_cons_of_silent hstep, inPhase_inPhase] at hreport htaken
            have htaken := Nat.succ_inj.mp htaken
            cases rest with
            | nil => simp [feed] at hreport
            | cons c tail =>
                by_cases hc : Byte.isDigit c = true
                · exact .of_wireWord (wireWord_of_feed_select htraffic hc hreport htaken)
                · have hlone : ∀ b ∈ (c :: tail).head?, Byte.isDigit b = false := by
                    simpa using hc
                  have hsplits := ih (.inr rfl) (fun _ => hlone) hreport htaken
                  exact hsplits.cons hstx hack hnak fun _ => ⟨htraffic, hlone⟩
      · simp only [Phase.begin, if_neg hstx, if_neg heot, if_neg hack, if_neg hnak] at hstep
        rw [feed_cons_of_silent hstep, inPhase_inPhase] at hreport htaken
        have hsplits := @ih .idle (.inl rfl) (by simp) hreport (Nat.succ_inj.mp htaken)
        exact hsplits.cons hstx hack hnak fun h => absurd h heot

/-! ## The grammar -/

/-- **A receiver between frames accepts exactly its grammar.**  One feeding takes all bytes and
ends with a frame if and only if the bytes are noise and then a word of that frame. -/
theorem feed_eq_frame_iff {receiver : Receiver} (hidle : receiver.phase = .idle) (bytes : Bytes)
    (frame : Frame) :
    (receiver.feed bytes).report? = some (.frame frame) ∧
        (receiver.feed bytes).taken = bytes.length ↔
      ∃ noise word, bytes = noise ++ word ∧ Noise receiver.traffic noise ∧
        frame.WireWord receiver.traffic receiver.mode word := by
  constructor
  · rintro ⟨hreport, htaken⟩
    have hreceiver : receiver.inPhase .idle = receiver := by rw [← hidle, inPhase_phase]
    exact splits_of_feed (.inl rfl) (by simp) (by rw [hreceiver]; exact hreport)
      (by rw [hreceiver]; exact htaken)
  · rintro ⟨noise, word, rfl, hnoise, hword⟩
    rw [feed_noise_wireWord hidle hnoise hword]
    exact ⟨rfl, rfl⟩

/-- A read request behind noise that ends with a lone EOT and a letter. -/
theorem feed_eq_frame_behind_lone_eot :
    (Receiver.start .commands .plain).phase = .idle ∧
      ∃ noise word, ([0x04, 0x41, 0x02, 0x31, 0x32, 0x30, 0x30, 0x35, 0x03, 0x35] : Bytes)
          = noise ++ word ∧ Noise .commands noise ∧
        Frame.WireWord .commands .plain
          (.request (.read ⟨12, by decide⟩ ⟨5, by decide⟩)) word :=
  ⟨rfl, (feed_eq_frame_iff (show (Receiver.start .commands .plain).phase = .idle from rfl) _ _).mp
    ⟨by decide +kernel, by decide +kernel⟩⟩

end Receiver

end FieldBus
