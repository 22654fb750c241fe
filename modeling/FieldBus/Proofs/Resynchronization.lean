import FieldBus.Proofs.Grammar

/-!
# Finding the way back

Whatever a receiver has heard, the next frame that opens with an STX or an EOT gets through: it is
reported, it is the last thing reported, and the receiver is between frames behind it
(**`Receiver.feedAll_encode`**).  A frame that was under way costs exactly one defect, and the
opening byte is left for the next call; in every other phase there is no defect at all.  The one
exception is the byte behind the ETX of a broken frame, which is taken whatever it is.

The phase that waits for a check byte is the delicate one, since there any byte may be the right
one.  It is safe because no body that a receiver can hold has an opening byte for its check byte
(`Frame.Body.opensFrame_checkByte`).
-/

namespace FieldBus

namespace Receiver

variable {receiver : Receiver} {traffic : Traffic} {mode : CheckMode} {frame : Frame}

/-- The word of an opening frame begins with an opening byte. -/
lemma opensFrame_head_wireWord {word : Bytes} (hframe : frame.IsOpening traffic)
    (hword : frame.WireWord traffic mode word) :
    ∀ b ∈ word.head?, Byte.opensFrame b = true := by
  cases hword with
  | checked hbody => simp [Frame.checked, Byte.opensFrame]
  | ack => cases hframe
  | nak => cases hframe
  | eot hreplies => simp [Byte.opensFrame]
  | select hcommands ha => simp [Byte.opensFrame]

/-- An opening byte begins a frame wherever none is under way, except in the place of the check
byte of a broken frame. -/
lemma step_opensFrame_of_not_isOpen {b : UInt8} (hopen : receiver.phase.isOpen = false)
    (hphase : receiver.phase ≠ .skippingCheck) (hb : Byte.opensFrame b = true) :
    receiver.step b = Phase.begin receiver.traffic b := by
  have hdigit := Byte.isDigit_of_opensFrame hb
  rw [step]
  cases hcase : receiver.phase with
  | idle => rfl
  | skipping => rw [Phase.step, if_pos hb]
  | skippingCheck => exact absurd hcase hphase
  | selectAddress field =>
      rw [hcase] at hopen
      rw [Phase.step, Byte.digit_of_not_isDigit hdigit]
      dsimp only
      rw [if_pos (by simpa [Phase.isOpen] using hopen)]
  | _ =>
      rw [hcase] at hopen
      cases hopen

/-- Where its first byte is treated as between frames, a word is all that is reported. -/
lemma feedAll_wireWord (receiver : Receiver) {word : Bytes}
    (hword : frame.WireWord receiver.traffic receiver.mode word)
    (hbegin : ∀ b ∈ word.head?, receiver.step b = Phase.begin receiver.traffic b) :
    receiver.feedAll word = ([(word.length, some (.frame frame))], receiver.inPhase .idle) := by
  rw [feedAll_of_feed hword.ne_nil (feed_wireWord receiver hword hbegin)]
  simp

/-- Within a frame, the word of an opening frame first costs the frame under way. -/
lemma feedAll_wireWord_of_isOpen {word seen : Bytes} (hframe : frame.IsOpening receiver.traffic)
    (hword : frame.WireWord receiver.traffic receiver.mode word)
    (hholds : receiver.phase.Holds receiver.traffic seen)
    (hopen : receiver.phase.isOpen = true) :
    ∃ fault, receiver.feedAll word
      = ([(0, some (.defect ⟨fault, receiver.station?⟩)), (word.length, some (.frame frame))],
          receiver.inPhase .idle) := by
  have hne := hword.ne_nil
  obtain ⟨b, rest, rfl⟩ := List.exists_cons_of_ne_nil hne
  have hb := opensFrame_head_wireWord hframe hword b rfl
  obtain ⟨fault, hstep⟩ := Phase.step_of_opensFrame receiver.mode hholds hopen hb
  have hagain := feedAll_wireWord (receiver.inPhase .idle) hword fun _ _ => rfl
  refine ⟨fault, ?_⟩
  rw [feedAll_of_feed hne (feed_cons_of_leave hstep)]
  dsimp only
  rw [List.drop_zero, hagain]
  rfl

lemma Follows.inPhase_idle {past : Bytes} (h : receiver.Follows traffic mode past) :
    receiver.inPhase .idle = .start traffic mode := by
  rw [Receiver.inPhase, Receiver.start, ← h.traffic_eq, ← h.mode_eq]

/-- **From every state that a receiver can be in, except behind the ETX of a broken frame, an
opening frame gets through.**  If no frame was under way nothing else is reported.  Otherwise one
defect is reported before, by a call that takes nothing.  An opening byte is never taken for the
check byte of the frame under way. -/
theorem feedAll_encode (hreachable : Reachable traffic mode receiver)
    (hphase : receiver.phase ≠ .skippingCheck) (hframe : frame.IsOpening traffic) :
    (receiver.phase.isOpen = false →
      receiver.feedAll (frame.encode mode).bytes
        = ([((frame.encode mode).bytes.length, some (.frame frame))], .start traffic mode)) ∧
    (receiver.phase.isOpen = true →
      ∃ defect, receiver.feedAll (frame.encode mode).bytes
        = ([(0, some (.defect defect)), ((frame.encode mode).bytes.length, some (.frame frame))],
            .start traffic mode)) ∧
    ∀ body awaited b, receiver.phase = .checksum body awaited → Byte.opensFrame b = true →
      checks mode body b = false := by
  obtain ⟨past, hfollows⟩ := hreachable.follows
  have hidle := hfollows.inPhase_idle
  have hword := Frame.wireWord_encode mode hframe.isLegible
  obtain ⟨rfl, rfl, seen, -, hholds⟩ := hfollows
  refine ⟨?_, ?_, ?_⟩
  · intro hopen
    rw [feedAll_wireWord receiver hword, hidle]
    intro b hb
    exact step_opensFrame_of_not_isOpen hopen hphase (opensFrame_head_wireWord hframe hword b hb)
  · intro hopen
    obtain ⟨fault, hfeedAll⟩ := feedAll_wireWord_of_isOpen hframe hword hholds hopen
    rw [hidle] at hfeedAll
    exact ⟨_, hfeedAll⟩
  · rintro body awaited b hchecksum hb
    rw [hchecksum] at hholds
    cases hholds with
    | checksum hbody =>
        rw [checks, beq_eq_false_iff_ne]
        rintro rfl
        rw [hbody.opensFrame_checkByte] at hb
        cases hb

/-- A select sequence in the place of the check byte of a read request. -/
theorem feedAll_encode_for_check_byte :
    ∃ defect, ((Receiver.start .commands .plain).feed
        [0x02, 0x31, 0x32, 0x30, 0x30, 0x35, 0x03]).receiver.feedAll
          ((Frame.request (.select ⟨7, by decide⟩)).encode .plain).bytes
      = ([(0, some (.defect defect)), (4, some (.frame (.request (.select ⟨7, by decide⟩))))],
          .start .commands .plain) := by
  have hframe : (Frame.request (.select ⟨7, by decide⟩)).IsOpening .commands := rfl
  exact (feedAll_encode (.feed _ .start) (by decide) hframe).2.1 (by decide)

end Receiver

end FieldBus
