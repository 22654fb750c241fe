import FieldBus.Proofs.Held
import FieldBus.Proofs.Reports
import Mathlib.Logic.Function.Iterate

/-!
# Feeding comes to an end

A call may take nothing of what it is fed: the byte that breaks a frame is left if it may open the
next one.  So the bytes that are left are no measure of what is still to do, and a receiver that
went on leaving the same byte would keep its host busy for ever.

It does not.  A byte is left only within an open frame, and every report leaves the receiver without
one.  So of all the calls on a run the first alone can take nothing, and a run of `n` bytes is fed
in `n + 1` calls at most (`Receiver.length_feedAll_le`).

* `Step.Orderly` — the two facts about a step that this rests on, for every phase
  (`Phase.orderly_step`) and not only for those that feeding leads to.
* `Receiver.turn` — one call of a host that feeds again what is left.
* **`Receiver.feeding_progresses`** — what a call that takes nothing has to show, and the bound on
  the calls.
-/

namespace FieldBus

/-- Behind a report no frame is open, and a byte that is left may open one. -/
inductive Step.Orderly (b : UInt8) : Step → Prop
  | silent {next : Phase} : Orderly b (.silent next)
  | report {report : Report} {next : Phase} (hclosed : next.isOpen = false) :
      Orderly b (.report report next)
  | leave {defect : Defect} (hopens : Byte.opensFrame b = true) : Orderly b (.leave defect)

namespace Phase

open Step (Orderly)

variable {traffic : Traffic} {mode : CheckMode} {phase : Phase} {body : Bytes} {b : UInt8}

lemma orderly_begin : Orderly b (begin traffic b) := by
  rw [begin.eq_def]
  split_ifs
  · exact .silent
  · cases traffic with
    | commands => exact .silent
    | replies => exact .report rfl
  · exact .report rfl
  · exact .report rfl
  · exact .silent

lemma orderly_fail (fault : Fault) : Orderly b (phase.fail fault b) := by
  rw [fail]
  split_ifs with hopens
  · exact .leave hopens
  · exact .report rfl
  · exact .report rfl
  · exact .report rfl

lemma orderly_extend (next : Bytes → Phase) : Orderly b (phase.extend body b next) := by
  rw [extend]
  split_ifs
  · exact .silent
  · exact orderly_fail _

lemma orderly_complete {α : Type} {number : Except Fault α} {next : α → Step}
    (hnext : ∀ a, Orderly b (next a)) : Orderly b (phase.complete b number next) := by
  cases number with
  | ok a => exact hnext a
  | error fault => exact orderly_fail fault

/-- **Every step of every phase is orderly.** -/
theorem orderly_step (traffic : Traffic) (mode : CheckMode) (phase : Phase) (b : UInt8) :
    Orderly b (phase.step traffic mode b) := by
  cases phase with
  | idle => exact orderly_begin
  | address body field =>
      rw [step]
      split_ifs
      · exact orderly_extend _
      · cases Byte.digit b with
        | error fault => exact orderly_fail _
        | ok d =>
            dsimp only
            split_ifs
            · exact orderly_complete fun station => orderly_extend _
            · exact orderly_extend _
  | parameter body station field =>
      rw [step]
      cases Byte.digit b with
      | error fault => exact orderly_fail _
      | ok d =>
          dsimp only
          split_ifs
          · exact orderly_complete fun parameter => orderly_extend _
          · exact orderly_extend _
  | terminator body station parameter =>
      rw [step]
      split_ifs
      · exact orderly_extend _
      · exact orderly_extend _
      · exact orderly_fail _
  | value body target negative field =>
      rw [step]
      by_cases hetx : b = Byte.etx
      · rw [if_pos hetx]
        by_cases hcount : field.count = 0
        · rw [if_pos hcount]
          exact orderly_fail _
        · rw [if_neg hcount]
          exact orderly_complete fun value => orderly_extend _
      · rw [if_neg hetx]
        cases Byte.digit b with
        | error fault => exact orderly_fail _
        | ok d =>
            dsimp only
            split_ifs
            · exact orderly_fail _
            · exact orderly_extend _
  | checksum body frame =>
      rw [step]
      split_ifs
      · exact .report rfl
      · exact orderly_fail _
  | selectAddress field =>
      rw [step]
      cases Byte.digit b with
      | error fault =>
          dsimp only
          split_ifs
          · exact orderly_begin
          · exact orderly_fail _
      | ok d =>
          dsimp only
          split_ifs
          · exact orderly_complete fun station => .silent
          · exact .silent
  | selectTerminator station =>
      rw [step]
      split_ifs
      · exact .report rfl
      · exact orderly_fail _
  | skipping =>
      rw [step]
      split_ifs
      · exact orderly_begin
      · exact .silent
      · exact .silent
  | skippingCheck => exact .silent

lemma begin_ne_leave (traffic : Traffic) (b : UInt8) (defect : Defect) :
    begin traffic b ≠ .leave defect :=
  Receiver.step_idle_ne_leave traffic .plain b defect

/-- Where no frame is open, every byte is taken. -/
lemma step_ne_leave (hclosed : phase.isOpen = false) (defect : Defect) :
    phase.step traffic mode b ≠ .leave defect := by
  cases phase with
  | idle => exact begin_ne_leave traffic b defect
  | selectAddress field =>
      have hcount : field.count = 0 := by simpa [isOpen] using hclosed
      rw [step]
      cases Byte.digit b with
      | error fault =>
          dsimp only
          rw [if_pos hcount]
          exact begin_ne_leave traffic b defect
      | ok d =>
          dsimp only
          rw [if_neg (by rw [Numeral.count_push, hcount]; decide)]
          rintro ⟨⟩
  | skipping =>
      rw [step]
      split_ifs
      · exact begin_ne_leave traffic b defect
      · rintro ⟨⟩
      · rintro ⟨⟩
  | skippingCheck => rintro ⟨⟩
  | _ => cases hclosed

end Phase

namespace Receiver

variable {receiver : Receiver} {bytes rest : Bytes} {b : UInt8}

/-- **Behind a report no frame is open.** -/
theorem isOpen_feed_of_report {report : Report} (h : (receiver.feed bytes).report? = some report) :
    (receiver.feed bytes).receiver.phase.isOpen = false := by
  obtain ⟨front, b, rest, phase, -, -, ⟨next, hstep, hfeed⟩ | ⟨defect, -, -, hfeed⟩⟩ :=
    exists_step_of_report h
  · have horderly := Phase.orderly_step receiver.traffic receiver.mode phase b
    rw [step, traffic_inPhase, mode_inPhase, phase_inPhase] at hstep
    rw [hstep] at horderly
    rw [hfeed]
    cases horderly with
    | report hclosed => exact hclosed
  · rw [hfeed]
    rfl

/-- Where no frame is open, a call takes something. -/
lemma taken_pos_of_not_isOpen (hclosed : receiver.phase.isOpen = false) (hne : bytes ≠ []) :
    0 < (receiver.feed bytes).taken := by
  cases bytes with
  | nil => exact absurd rfl hne
  | cons b rest =>
      cases hstep : receiver.step b with
      | silent next =>
          rw [feed_cons_of_silent hstep]
          exact Nat.succ_pos _
      | report report next =>
          rw [feed_cons_of_report hstep]
          exact Nat.one_pos
      | leave defect => exact absurd hstep (Phase.step_ne_leave hclosed defect)

/-- A byte that a call leaves without taking any may open a frame. -/
lemma opensFrame_of_taken_eq_zero (h : (receiver.feed (b :: rest)).taken = 0) :
    Byte.opensFrame b = true := by
  cases hstep : receiver.step b with
  | silent next =>
      rw [feed_cons_of_silent hstep] at h
      cases h
  | report report next =>
      rw [feed_cons_of_report hstep] at h
      cases h
  | leave defect =>
      have horderly := Phase.orderly_step receiver.traffic receiver.mode receiver.phase b
      rw [step] at hstep
      rw [hstep] at horderly
      cases horderly with
      | leave hopens => exact hopens

/-! ## Counting calls -/

/-- Only the first call of a run can take nothing, and only within an open frame. -/
lemma length_feedAll_le (receiver : Receiver) (bytes : Bytes) :
    (receiver.feedAll bytes).1.length
      ≤ bytes.length + if receiver.phase.isOpen then 1 else 0 := by
  induction receiver, bytes using feedAll.induct with
  | case1 receiver => simp
  | case2 receiver b rest fed _ _ _ ih =>
      rw [feedAll_of_feed (List.cons_ne_nil b rest) rfl, List.length_cons]
      cases hreport : fed.report? with
      | none =>
          -- the call has taken everything, so there is no other
          have htaken : fed.taken = (b :: rest).length := taken_feed_of_none hreport
          rw [show (b :: rest).drop (receiver.feed (b :: rest)).taken = [] from
            List.drop_eq_nil_of_le (Nat.le_of_eq htaken.symm), feedAll_nil]
          simp only [List.length_nil, List.length_cons]
          omega
      | some report =>
          have hclosed : fed.receiver.phase.isOpen = false := isOpen_feed_of_report hreport
          rw [hclosed, if_neg Bool.false_ne_true, List.length_drop] at ih
          have hle : fed.taken ≤ (b :: rest).length := taken_feed_le receiver (b :: rest)
          change (fed.receiver.feedAll ((b :: rest).drop fed.taken)).1.length + 1 ≤ _
          have hpos : 0 < fed.taken ∨ receiver.phase.isOpen = true := by
            cases hopen : receiver.phase.isOpen with
            | false => exact .inl (taken_pos_of_not_isOpen hopen (List.cons_ne_nil b rest))
            | true => exact .inr rfl
          rcases hpos with hpos | hopen
          · split_ifs <;> omega
          · rw [if_pos hopen]
            omega

/-- One call of a host that feeds again what is left: the receiver behind it, and what it left. -/
def turn : Receiver × Bytes → Receiver × Bytes
  | (receiver, bytes) => ((receiver.feed bytes).receiver, bytes.drop (receiver.feed bytes).taken)

lemma turn_nil (receiver : Receiver) : turn (receiver, []) = (receiver, []) := rfl

/-- After as many turns as the whole run has calls, nothing is left of it. -/
lemma iterate_turn_length (receiver : Receiver) (bytes : Bytes) :
    turn^[(receiver.feedAll bytes).1.length] (receiver, bytes) = (receiver.after bytes, []) := by
  induction receiver, bytes using feedAll.induct with
  | case1 receiver => simp
  | case2 receiver b rest fed _ _ _ ih =>
      rw [after_eq_feed, feedAll_of_feed (List.cons_ne_nil b rest) rfl, List.length_cons,
        Function.iterate_succ_apply]
      exact ih

/-- More turns than there are calls do no harm. -/
lemma iterate_turn_of_le {n : Nat} (h : (receiver.feedAll bytes).1.length ≤ n) :
    turn^[n] (receiver, bytes) = (receiver.after bytes, []) := by
  obtain ⟨more, rfl⟩ := Nat.exists_eq_add_of_le' h
  rw [Function.iterate_add_apply, iterate_turn_length]
  exact Function.iterate_fixed (turn_nil _) more

/-- **Feeding always gets on**, in whatever phase it finds the receiver.  No call takes more than
there is.  A call that takes nothing of some bytes tells of a defect.  The byte it leaves may open a
frame, the receiver is then between frames, and the next call takes the byte.  So a host that feeds
again what is left has fed all of it after two calls for each byte, if not before. -/
theorem feeding_progresses (receiver : Receiver) (bytes : Bytes) :
    (receiver.feed bytes).taken ≤ bytes.length ∧
      (∀ b rest, bytes = b :: rest → (receiver.feed bytes).taken = 0 →
        (∃ defect, (receiver.feed bytes).report? = some (.defect defect)) ∧
          (b = Byte.stx ∨ b = Byte.eot) ∧
          (receiver.feed bytes).receiver.isIdle = true ∧
          0 < ((receiver.feed bytes).receiver.feed bytes).taken) ∧
      (receiver.feedAll bytes).1.length ≤ 2 * bytes.length ∧
      turn^[2 * bytes.length] (receiver, bytes) = (receiver.after bytes, []) := by
  have hcalls : (receiver.feedAll bytes).1.length ≤ 2 * bytes.length := by
    cases bytes with
    | nil => simp
    | cons b rest =>
        have hle := length_feedAll_le receiver (b :: rest)
        have hone : (if receiver.phase.isOpen then 1 else 0) ≤ 1 := by split_ifs <;> omega
        rw [List.length_cons] at hle ⊢
        omega
  refine ⟨taken_feed_le receiver bytes, ?_, hcalls, iterate_turn_of_le hcalls⟩
  rintro b rest rfl htaken
  have hne := List.cons_ne_nil b rest
  obtain ⟨defect, hdefect⟩ := exists_defect_of_taken_eq_zero hne htaken
  exact ⟨⟨defect, hdefect⟩, Byte.opensFrame_iff.mp (opensFrame_of_taken_eq_zero htaken),
    (isIdle_of_taken_eq_zero hne htaken).2,
    taken_pos_of_not_isOpen (isOpen_feed_of_report hdefect) hne⟩

/-- An EOT that interrupts a frame of the commands is left, and opens a select sequence then. -/
theorem feeding_progresses_at_left_byte :
    let receiver := ((start .commands .plain).feed [0x02, 0x31]).receiver
    let bytes : Bytes := [0x04, 0x31]
    (receiver.feed bytes).taken = 0 ∧
      0 < ((receiver.feed bytes).receiver.feed bytes).taken ∧
      turn^[4] (receiver, bytes) = (receiver.after bytes, []) := by
  intro receiver bytes
  have htaken : (receiver.feed bytes).taken = 0 := by decide
  obtain ⟨-, hleft, -, hturns⟩ := feeding_progresses receiver bytes
  exact ⟨htaken, (hleft _ _ rfl htaken).2.2.2, hturns⟩

end Receiver

end FieldBus
