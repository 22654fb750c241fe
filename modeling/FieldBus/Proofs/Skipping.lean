import FieldBus.Proofs.Recovery

/-!
# What a broken frame hides

A byte that breaks the body of a frame is not the end of it: its digits, its ETX and its check byte
are still to come, and must not be taken for something else.  So the receiver skips.  What it hides
is meant to be the rest of that frame and nothing else.

* `Phase.Skips` — the bytes that may be hidden: those in front of the ETX, and the ETX.
* `Receiver.Hides` — what a receiver that skips does with them and with the byte behind them.
* **`Receiver.hides_behind_defect`** — every defect that leaves a receiver skipping leaves it so.
  While no ETX has come, an opening byte ends the skipping, and all that follows is as for a
  receiver that has heard nothing before.
* `Receiver.stx_lost_in_check_place` — the byte behind the ETX is the exception.  It is hidden
  whatever it is, and if it was the opening byte of a frame, then that frame is lost.
-/

namespace FieldBus

namespace Phase

variable {traffic : Traffic} {mode : CheckMode} {phase next last : Phase} {b : UInt8}
  {hidden : Bytes} {defect : Defect}

/-! ## Where a defect leads -/

lemma begin_ne_defect : begin traffic b ≠ .report (.defect defect) next := by
  simp only [begin]
  split_ifs
  · simp
  · cases traffic <;> simp
  · simp
  · simp
  · simp

lemma eq_idle_of_fail {fault : Fault} (hbody : phase.inBody = false)
    (h : phase.fail fault b = .report (.defect defect) next) : next = .idle := by
  rw [fail, if_neg (show ¬ phase.inBody = true by simp [hbody])] at h
  split_ifs at h
  cases h
  rfl

/-- Outside a body nothing is left to skip. -/
lemma eq_idle_of_defect (hbody : phase.inBody = false)
    (h : phase.step traffic mode b = .report (.defect defect) next) : next = .idle := by
  cases phase with
  | idle => exact absurd h begin_ne_defect
  | checksum body frame =>
      rw [step] at h
      split_ifs at h
      · cases h
      · exact eq_idle_of_fail hbody h
  | selectAddress field =>
      rw [step] at h
      cases hdigit : Byte.digit b with
      | error fault =>
          rw [hdigit] at h
          dsimp only at h
          split_ifs at h
          · exact absurd h begin_ne_defect
          · exact eq_idle_of_fail hbody h
      | ok d =>
          rw [hdigit] at h
          dsimp only at h
          split_ifs at h
          cases hstation : Station.ofInt (field.push d).value with
          | error fault =>
              rw [hstation] at h
              exact eq_idle_of_fail hbody h
          | ok station =>
              rw [hstation] at h
              cases h
  | selectTerminator station =>
      rw [step] at h
      split_ifs at h
      · cases h
      · exact eq_idle_of_fail hbody h
  | skipping =>
      rw [step] at h
      split_ifs at h
      exact absurd h begin_ne_defect
  | skippingCheck => cases h
  | _ => cases hbody

/-- A defect that leaves something to skip leaves the check byte alone if the ETX broke the frame,
and otherwise all that comes up to the ETX. -/
lemma eq_of_defect {seen : Bytes} (hholds : phase.Holds traffic seen)
    (h : phase.step traffic mode b = .report (.defect defect) next) (hnext : next ≠ .idle) :
    next = if b = Byte.etx then .skippingCheck else .skipping := by
  have hbody : phase.inBody = true := by
    by_contra hbody
    exact hnext (eq_idle_of_defect (by simpa using hbody) h)
  have hopens : Byte.opensFrame b = false := by
    -- an opening byte is left, and not taken with a report
    by_contra hopens
    obtain ⟨fault, hleave⟩ :=
      step_of_opensFrame mode hholds (isOpen_of_inBody hbody) (by simpa using hopens)
    rw [hleave] at h
    cases h
  have hstep : BodyStep b (phase.step traffic mode b) := bodyStep_step hbody hopens
  rw [h] at hstep
  cases hstep
  rfl

/-! ## What is hidden -/

/-- The bytes `hidden` may be hidden of what follows a broken frame that is skipped from `phase` on;
the skipping has then come to `last`. -/
inductive Skips : Phase → Bytes → Phase → Prop
  | inner {hidden : Bytes} (h : ∀ b ∈ hidden, Byte.IsInner b) : Skips .skipping hidden .skipping
  | etx {hidden : Bytes} (h : ∀ b ∈ hidden, Byte.IsInner b) :
      Skips .skipping (hidden ++ [Byte.etx]) .skippingCheck
  | check : Skips .skippingCheck [] .skippingCheck

lemma Skips.eq_or_eq (h : phase.Skips hidden last) : last = .skipping ∨ last = .skippingCheck := by
  cases h with
  | inner => exact .inl rfl
  | etx => exact .inr rfl
  | check => exact .inr rfl

lemma Skips.cons (hb : Byte.IsInner b) (h : Skips .skipping hidden last) :
    Skips .skipping (b :: hidden) last := by
  cases h with
  | inner hhidden => exact .inner (List.forall_mem_cons.mpr ⟨hb, hhidden⟩)
  | etx hhidden => exact .etx (List.forall_mem_cons.mpr ⟨hb, hhidden⟩)

/-- Whatever follows, as much of it as may be hidden ends with it, in front of an opening byte, or
in front of the place of the check byte. -/
lemma exists_skips (hphase : phase = .skipping ∨ phase = .skippingCheck) (more : Bytes) :
    ∃ hidden last rest, more = hidden ++ rest ∧ phase.Skips hidden last ∧
      ∀ b ∈ rest.head?, Byte.opensFrame b = true ∨ last = .skippingCheck := by
  rcases hphase with rfl | rfl
  · induction more with
    | nil => exact ⟨[], .skipping, [], rfl, .inner (by simp), fun b hb => by cases hb⟩
    | cons b more ih =>
        by_cases hopens : Byte.opensFrame b = true
        · exact ⟨[], .skipping, b :: more, rfl, .inner (by simp), by simp [hopens]⟩
        by_cases hetx : b = Byte.etx
        · subst hetx
          exact ⟨[Byte.etx], .skippingCheck, more, rfl, @Skips.etx [] (by simp),
            fun _ _ => .inr rfl⟩
        · obtain ⟨hidden, last, rest, rfl, hskips, hrest⟩ := ih
          exact ⟨b :: hidden, last, rest, rfl, hskips.cons ⟨by simpa using hopens, hetx⟩, hrest⟩
  · exact ⟨[], .skippingCheck, more, rfl, .check, fun _ _ => .inr rfl⟩

end Phase

namespace Receiver

variable {receiver broken : Receiver} {traffic : Traffic} {mode : CheckMode} {bytes hidden : Bytes}
  {last : Phase}

/-- What a receiver that skips does with bytes that may be hidden, and behind them. -/
structure Hides (traffic : Traffic) (mode : CheckMode) (broken : Receiver) (hidden : Bytes)
    (last : Phase) : Prop where
  /-- Nothing is told of them. -/
  passes : broken.Passes hidden last
  /-- Behind the ETX one more byte is hidden, and the receiver is between frames. -/
  check : last = .skippingCheck → ∀ b, broken.Passes (hidden ++ [b]) .idle
  /-- An opening byte does what it does to a fresh receiver, except in the place of the check
  byte. -/
  opening : ∀ b, Byte.opensFrame b = true →
    ((∀ rest, (broken.inPhase last).feed (b :: rest) = (start traffic mode).feed (b :: rest)) ↔
      last = .skipping)
  /-- A frame that opens where the skipping may end is reported. -/
  frame : last = .skipping → ∀ (frame : Frame) (word : Bytes), frame.WireWord traffic mode word →
    (∀ b ∈ word.head?, Byte.opensFrame b = true) →
    broken.feed (hidden ++ word)
      = ⟨some (.frame frame), (hidden ++ word).length, start traffic mode⟩

lemma passes_of_skips (receiver : Receiver) {phase : Phase} (h : phase.Skips hidden last) :
    (receiver.inPhase phase).Passes hidden last := by
  cases h with
  | inner hhidden => exact passes_skipping receiver hhidden
  | etx hhidden => exact (passes_skipping receiver hhidden).append (.singleton rfl)
  | check => exact .nil

/-- In front of the ETX an opening byte is heard as if nothing had been heard before. -/
lemma feed_skipping_of_opensFrame (traffic : Traffic) (mode : CheckMode) {b : UInt8}
    (hb : Byte.opensFrame b = true) (rest : Bytes) :
    ((start traffic mode).inPhase .skipping).feed (b :: rest)
      = (start traffic mode).feed (b :: rest) := by
  refine feed_of_step_eq ?_
  rw [step, phase_inPhase, Phase.step, if_pos hb]
  rfl

/-- In the place of the check byte an opening byte is not heard. -/
lemma feed_check_ne (traffic : Traffic) (mode : CheckMode) {b : UInt8}
    (hb : Byte.opensFrame b = true) :
    ((start traffic mode).inPhase .skippingCheck).feed [b] ≠ (start traffic mode).feed [b] := by
  have hcheck : ((start traffic mode).inPhase .skippingCheck).feed [b]
      = ⟨none, 1, start traffic mode⟩ := rfl
  rw [hcheck]
  intro heq
  rcases Byte.opensFrame_iff.mp hb with rfl | rfl
  · cases heq
  · cases traffic <;> cases heq

lemma hides_of_skips (receiver : Receiver) {phase : Phase} (h : phase.Skips hidden last) :
    Hides receiver.traffic receiver.mode (receiver.inPhase phase) hidden last := by
  have hpasses := passes_of_skips receiver h
  have hopening : ∀ b, Byte.opensFrame b = true → ∀ rest,
      (receiver.inPhase .skipping).feed (b :: rest)
        = (start receiver.traffic receiver.mode).feed (b :: rest) :=
    fun _ hb => feed_skipping_of_opensFrame receiver.traffic receiver.mode hb
  refine ⟨hpasses, ?_, ?_, ?_⟩
  · rintro rfl b
    exact hpasses.append (.singleton rfl)
  · intro b hb
    rw [inPhase_inPhase]
    constructor
    · intro hfeed
      rcases h.eq_or_eq with rfl | rfl
      · rfl
      · exact absurd (hfeed []) (feed_check_ne receiver.traffic receiver.mode hb)
    · rintro rfl
      exact hopening b hb
  · rintro rfl frame word hword hhead
    obtain ⟨b, rest, rfl⟩ := List.exists_cons_of_ne_nil hword.ne_nil
    have hfeed := feed_wireWord (start receiver.traffic receiver.mode) hword fun _ _ => rfl
    rw [hpasses.feed_append, inPhase_inPhase, hopening b (hhead b rfl), hfeed, List.length_append]
    rfl

/-- A defect that leaves something to skip leaves the receiver behind the ETX if that was the last
byte taken, and in front of it otherwise. -/
lemma phase_behind_defect {taken : Nat} {defect : Defect}
    (hreachable : Reachable traffic mode receiver)
    (hfeed : receiver.feed bytes = ⟨some (.defect defect), taken, broken⟩)
    (hphase : broken.phase ≠ .idle) :
    broken.phase = if (bytes.take taken).getLast? = some Byte.etx then .skippingCheck
      else .skipping := by
  obtain ⟨past, hfollows⟩ := hreachable.follows
  obtain ⟨front, b, rest, phase, seen, rfl, -, -, hholds, hlast⟩ :=
    hfollows.exists_holds_of_report (congrArg Fed.report? hfeed)
  rcases hlast with ⟨next, hstep, hbroken⟩ | ⟨_, _, _, hbroken⟩
  · obtain ⟨-, rfl, rfl⟩ := Fed.mk.inj (hfeed.symm.trans hbroken)
    have hnext := Phase.eq_of_defect hholds hstep hphase
    have htake : (front ++ b :: rest).take (front.length + 1) = front ++ [b] :=
      List.take_length_add_append 1
    rw [htake, List.getLast?_concat, phase_inPhase, hnext]
    simp only [Option.some.injEq]
  · obtain ⟨-, -, rfl⟩ := Fed.mk.inj (hfeed.symm.trans hbroken)
    exact absurd rfl hphase

/-- **What a broken frame hides is the rest of that frame.**  A defect leaves the receiver behind
the ETX if that was the byte which broke the frame, and in front of it otherwise.  Whatever follows,
the bytes up to the ETX, the ETX and the one byte behind it are hidden.  In front of the ETX an
opening byte ends the skipping; in the place of the check byte it does not. -/
theorem hides_behind_defect {taken : Nat} {defect : Defect}
    (hreachable : Reachable traffic mode receiver)
    (hfeed : receiver.feed bytes = ⟨some (.defect defect), taken, broken⟩)
    (hphase : broken.phase = .skipping ∨ broken.phase = .skippingCheck) :
    (broken.phase = .skippingCheck ↔ (bytes.take taken).getLast? = some Byte.etx) ∧
      (∀ more, ∃ hidden last rest, more = hidden ++ rest ∧ broken.phase.Skips hidden last ∧
        ∀ b ∈ rest.head?, Byte.opensFrame b = true ∨ last = .skippingCheck) ∧
      ∀ hidden last, broken.phase.Skips hidden last → Hides traffic mode broken hidden last := by
  refine ⟨?_, Phase.exists_skips hphase, ?_⟩
  · have hbroken := phase_behind_defect hreachable hfeed (by rcases hphase with h | h <;> simp [h])
    rw [hbroken]
    split_ifs with hetx
    · exact iff_of_true rfl hetx
    · exact iff_of_false (by simp) hetx
  · intro hidden last hskips
    obtain ⟨past, hfollows⟩ := (hreachable.feed bytes).follows
    rw [hfeed] at hfollows
    have hhides := hides_of_skips broken hskips
    rwa [hfollows.traffic_eq, hfollows.mode_eq, inPhase_phase] at hhides

/-- A station field that begins with a letter: what is hidden of a digit and an ACK behind it. -/
theorem hides_behind_defect_of_letter :
    (start .commands .plain).feed [0x02, 0x41]
        = ⟨some (.defect ⟨.invalidDigit, none⟩), 2, ⟨.commands, .plain, .skipping⟩⟩ ∧
      Hides .commands .plain ⟨.commands, .plain, .skipping⟩ [0x30, 0x06] .skipping := by
  have hfeed : (start .commands .plain).feed [0x02, 0x41]
      = ⟨some (.defect ⟨.invalidDigit, none⟩), 2, ⟨.commands, .plain, .skipping⟩⟩ := rfl
  refine ⟨hfeed, (hides_behind_defect .start hfeed (.inl rfl)).2.2 _ _ (.inner ?_)⟩
  simp [Byte.IsInner, Byte.opensFrame, Byte.stx, Byte.eot, Byte.etx]

/-- **An STX in the place of the check byte is lost**, and a whole read request with it.  A receiver
that has heard nothing before reports the request. -/
theorem stx_lost_in_check_place :
    (start .commands .plain).feed [0x02, 0x41]
        = ⟨some (.defect ⟨.invalidDigit, none⟩), 2, ⟨.commands, .plain, .skipping⟩⟩ ∧
      (⟨.commands, .plain, .skipping⟩ : Receiver).feed
          [0x03, 0x02, 0x31, 0x32, 0x30, 0x30, 0x35, 0x03, 0x35]
        = ⟨none, 9, start .commands .plain⟩ ∧
      (start .commands .plain).feed [0x02, 0x31, 0x32, 0x30, 0x30, 0x35, 0x03, 0x35]
        = ⟨some (.frame (.request (.read ⟨12, by decide⟩ ⟨5, by decide⟩))), 8,
            start .commands .plain⟩ :=
  ⟨rfl, rfl, rfl⟩

end Receiver

end FieldBus
