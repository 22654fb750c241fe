import FieldBus.Receiver.Feed
import Mathlib.Tactic.Common

/-!
# Feeding, piece by piece

`Receiver.feed` takes a run of bytes apart from the front.  The lemmas here say how it goes on
behind a beginning that gave no report (`feed_append`), how a feeding comes to its report
(`exists_step_of_report`), and what the whole-run loop does with the first call (`feedAll_of_feed`),
so that later files work with runs and not with bytes.
-/

namespace FieldBus

namespace Receiver

variable {receiver : Receiver} {b : UInt8} {bytes more : Bytes}

/-- The receiver in another phase. -/
def inPhase (receiver : Receiver) (phase : Phase) : Receiver := { receiver with phase := phase }

@[simp] lemma traffic_inPhase (phase : Phase) :
    (receiver.inPhase phase).traffic = receiver.traffic := rfl

@[simp] lemma mode_inPhase (phase : Phase) : (receiver.inPhase phase).mode = receiver.mode := rfl

@[simp] lemma phase_inPhase (phase : Phase) : (receiver.inPhase phase).phase = phase := rfl

@[simp] lemma inPhase_inPhase (phase next : Phase) :
    (receiver.inPhase phase).inPhase next = receiver.inPhase next := rfl

@[simp] lemma inPhase_phase : receiver.inPhase receiver.phase = receiver := rfl

/-- What one byte does in the phase that the receiver is in. -/
def step (receiver : Receiver) (b : UInt8) : Step :=
  receiver.phase.step receiver.traffic receiver.mode b

lemma feed_cons_of_silent {next : Phase} (h : receiver.step b = .silent next) :
    receiver.feed (b :: bytes)
      = { (receiver.inPhase next).feed bytes with
          taken := ((receiver.inPhase next).feed bytes).taken + 1 } := by
  rw [step] at h
  rw [feed, h]
  rfl

lemma feed_cons_of_report {report : Report} {next : Phase}
    (h : receiver.step b = .report report next) :
    receiver.feed (b :: bytes) = ⟨some report, 1, receiver.inPhase next⟩ := by
  rw [step] at h
  rw [feed, h]
  rfl

lemma feed_cons_of_leave {defect : Defect} (h : receiver.step b = .leave defect) :
    receiver.feed (b :: bytes) = ⟨some (.defect defect), 0, receiver.inPhase .idle⟩ := by
  rw [step] at h
  rw [feed, h]
  rfl

/-- Two phases that do the same with the first byte do the same with all bytes. -/
lemma feed_of_step_eq {phase : Phase} (h : (receiver.inPhase phase).step b = receiver.step b) :
    (receiver.inPhase phase).feed (b :: bytes) = receiver.feed (b :: bytes) := by
  cases hstep : receiver.step b with
  | silent next => rw [feed_cons_of_silent hstep, feed_cons_of_silent (h.trans hstep)]; rfl
  | report report next => rw [feed_cons_of_report hstep, feed_cons_of_report (h.trans hstep)]; rfl
  | leave defect => rw [feed_cons_of_leave hstep, feed_cons_of_leave (h.trans hstep)]; rfl

/-- The receiver takes the bytes, tells of nothing, and is then in the phase `next`. -/
def Passes (receiver : Receiver) (bytes : Bytes) (next : Phase) : Prop :=
  receiver.feed bytes = ⟨none, bytes.length, receiver.inPhase next⟩

namespace Passes

variable {next last : Phase}

lemma nil : receiver.Passes [] receiver.phase := rfl

lemma cons (next : Phase) (hstep : receiver.step b = .silent next)
    (hrest : (receiver.inPhase next).Passes bytes last) : receiver.Passes (b :: bytes) last := by
  rw [Passes] at hrest
  rw [Passes, feed_cons_of_silent hstep, hrest]
  rfl

lemma singleton (hstep : receiver.step b = .silent next) : receiver.Passes [b] next :=
  cons next hstep nil

/-- What passes leads to one phase only. -/
lemma unique (h : receiver.Passes bytes next) (h' : receiver.Passes bytes last) : next = last :=
  congrArg (fun fed => fed.receiver.phase) (h.symm.trans h')

/-- What passes has a first step. -/
lemma exists_step (h : receiver.Passes (b :: bytes) last) :
    ∃ next, receiver.step b = .silent next ∧ (receiver.inPhase next).Passes bytes last := by
  rw [Passes] at h
  cases hstep : receiver.step b with
  | silent next =>
      rw [feed_cons_of_silent hstep] at h
      obtain ⟨hreport, htaken, hreceiver⟩ := Fed.mk.inj h
      refine ⟨next, rfl, ?_⟩
      rw [Passes, ← Nat.succ_inj.mp htaken, ← hreport, inPhase_inPhase, ← hreceiver]
  | report report next =>
      rw [feed_cons_of_report hstep] at h
      cases (Fed.mk.inj h).1
  | leave defect =>
      rw [feed_cons_of_leave hstep] at h
      cases (Fed.mk.inj h).1

/-- Behind bytes that pass, feeding goes on from the phase that they lead to. -/
lemma feed_append (h : receiver.Passes bytes next) :
    receiver.feed (bytes ++ more)
      = { (receiver.inPhase next).feed more with
          taken := bytes.length + ((receiver.inPhase next).feed more).taken } := by
  induction bytes generalizing receiver with
  | nil =>
      rw [Passes, feed] at h
      obtain ⟨-, -, h⟩ := Fed.mk.inj h
      rw [← h]
      simp
  | cons b rest ih =>
      obtain ⟨phase, hstep, hpasses⟩ := h.exists_step
      rw [List.cons_append, feed_cons_of_silent hstep, ih hpasses]
      simp only [inPhase_inPhase, List.length_cons, Fed.mk.injEq, true_and, and_true]
      omega

/-- Behind a beginning of what passes, the rest passes. -/
lemma of_append (hfront : receiver.Passes bytes next)
    (h : receiver.Passes (bytes ++ more) last) : (receiver.inPhase next).Passes more last := by
  rw [Passes, hfront.feed_append, List.length_append] at h
  obtain ⟨hreport, htaken, hreceiver⟩ := Fed.mk.inj h
  rw [Passes, ← hreport, ← Nat.add_left_cancel htaken, inPhase_inPhase, ← hreceiver]

lemma append (h : receiver.Passes bytes next) (hmore : (receiver.inPhase next).Passes more last) :
    receiver.Passes (bytes ++ more) last := by
  rw [Passes] at hmore
  rw [Passes, h.feed_append, hmore, List.length_append]
  rfl

end Passes

/-- A feeding that ends with a report is silent up to the byte that brings it.  That byte is taken,
or left with the defect. -/
lemma exists_step_of_report {report : Report} (h : (receiver.feed bytes).report? = some report) :
    ∃ front b rest phase, bytes = front ++ b :: rest ∧ receiver.Passes front phase ∧
      ((∃ next, (receiver.inPhase phase).step b = .report report next ∧
          receiver.feed bytes = ⟨some report, front.length + 1, receiver.inPhase next⟩) ∨
        ∃ defect, report = .defect defect ∧ (receiver.inPhase phase).step b = .leave defect ∧
          receiver.feed bytes = ⟨some report, front.length, receiver.inPhase .idle⟩) := by
  induction bytes generalizing receiver with
  | nil => cases h
  | cons b rest ih =>
      cases hstep : receiver.step b with
      | silent next =>
          rw [feed_cons_of_silent hstep] at h ⊢
          obtain ⟨front, c, tail, phase, rfl, hpasses, hlast⟩ := ih h
          refine ⟨b :: front, c, tail, phase, rfl, .cons next hstep hpasses, ?_⟩
          rcases hlast with ⟨last, hreport, hfeed⟩ | ⟨defect, hdefect, hleave, hfeed⟩
          · exact .inl ⟨last, hreport, by rw [hfeed]; rfl⟩
          · exact .inr ⟨defect, hdefect, hleave, by rw [hfeed]; rfl⟩
      | report other next =>
          rw [feed_cons_of_report hstep] at h ⊢
          obtain rfl := Option.some.inj h
          exact ⟨[], b, rest, receiver.phase, rfl, .nil, .inl ⟨next, hstep, rfl⟩⟩
      | leave defect =>
          rw [feed_cons_of_leave hstep] at h ⊢
          obtain rfl := Option.some.inj h
          exact ⟨[], b, rest, receiver.phase, rfl, .nil, .inr ⟨defect, rfl, hstep, rfl⟩⟩

/-- A call that takes nothing tells of a defect. -/
lemma exists_defect_of_taken_eq_zero (hne : bytes ≠ []) (h : (receiver.feed bytes).taken = 0) :
    ∃ defect, (receiver.feed bytes).report? = some (.defect defect) := by
  cases hreport : (receiver.feed bytes).report? with
  | none =>
      rw [taken_feed_of_none hreport] at h
      exact absurd (List.length_eq_zero_iff.mp h) hne
  | some report =>
      obtain ⟨front, b, rest, phase, -, -, ⟨next, -, hfeed⟩ | ⟨defect, rfl, -, -⟩⟩ :=
        exists_step_of_report hreport
      · rw [hfeed] at h
        cases h
      · exact ⟨defect, rfl⟩

lemma feedAll_of_feed {fed : Fed} (hne : bytes ≠ []) (h : receiver.feed bytes = fed) :
    receiver.feedAll bytes
      = ((fed.taken, fed.report?) :: (fed.receiver.feedAll (bytes.drop fed.taken)).1,
          (fed.receiver.feedAll (bytes.drop fed.taken)).2) := by
  subst h
  cases bytes with
  | nil => exact absurd rfl hne
  | cons b rest =>
      rw [feedAll]

@[simp] lemma feedAll_nil : receiver.feedAll [] = ([], receiver) := by
  rw [feedAll]

end Receiver

end FieldBus
