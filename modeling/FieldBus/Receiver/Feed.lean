import FieldBus.Receiver.Basic

/-!
# Receiving runs of bytes

`Receiver.feed` steps through a run of bytes up to the first report and tells how many bytes it
took; the caller feeds the rest again.  A byte that is left with a defect was not taken, so feeding
may take nothing at all.  It still gets somewhere: the receiver is between frames afterwards, and
then takes the byte.  `Receiver.work` measures this, and every feeding of at least one byte
lowers it (**`work_feed_lt`**), which is why the loops here and above end.

* `Receiver.feed` — up to the first report.
* `Receiver.feedAll` — the whole run, with every report and what each call took.
* `Receiver.seek` — up to the first report that is wanted.
-/

namespace FieldBus

/-- What came of feeding a run of bytes: the report it ended with, unless the run ended first; the
number of bytes taken; and the receiver afterwards. -/
structure Fed where
  report? : Option Report
  taken : Nat
  receiver : Receiver
  deriving DecidableEq

namespace Receiver

/-- Feeds bytes up to the first report. -/
def feed (receiver : Receiver) : Bytes → Fed
  | [] => ⟨none, 0, receiver⟩
  | b :: rest =>
    match receiver.phase.step receiver.traffic receiver.mode b with
    | .silent next =>
      let fed := { receiver with phase := next }.feed rest
      { fed with taken := fed.taken + 1 }
    | .report report next => ⟨some report, 1, { receiver with phase := next }⟩
    | .leave defect => ⟨some (.defect defect), 0, receiver.reset⟩

/-! ## Feeding gets somewhere -/

/-- What is left to do: two for each byte, and one for a frame that may have to be given up. -/
def work (receiver : Receiver) (bytes : Bytes) : Nat :=
  2 * bytes.length + if receiver.isIdle then 0 else 1

theorem step_idle_ne_leave (traffic : Traffic) (mode : CheckMode) (b : UInt8) (defect : Defect) :
    Phase.idle.step traffic mode b ≠ .leave defect := by
  simp only [Phase.step, Phase.begin]
  split
  · simp
  split
  · cases traffic <;> simp
  split
  · simp
  split <;> simp

theorem taken_feed_le (receiver : Receiver) (bytes : Bytes) :
    (receiver.feed bytes).taken ≤ bytes.length := by
  induction bytes generalizing receiver with
  | nil => simp [feed]
  | cons b rest ih =>
    unfold feed
    split
    · simpa using ih _
    · simp
    · simp

theorem taken_feed_of_none {receiver : Receiver} {bytes : Bytes}
    (h : (receiver.feed bytes).report? = none) : (receiver.feed bytes).taken = bytes.length := by
  induction bytes generalizing receiver with
  | nil => rfl
  | cons b rest ih =>
    unfold feed at h ⊢
    split at h
    · simpa using ih h
    · simp at h
    · simp at h

/-- A call that takes nothing finds the receiver within a frame and leaves it between frames. -/
theorem isIdle_of_taken_eq_zero {receiver : Receiver} {bytes : Bytes} (hne : bytes ≠ [])
    (h : (receiver.feed bytes).taken = 0) :
    receiver.isIdle = false ∧ (receiver.feed bytes).receiver.isIdle = true := by
  cases bytes with
  | nil => exact absurd rfl hne
  | cons b rest =>
    unfold feed at h ⊢
    split at h
    · simp at h
    · simp at h
    · next defect hstep =>
      refine ⟨?_, rfl⟩
      cases hphase : receiver.phase with
      | idle =>
        rw [hphase] at hstep
        exact absurd hstep (step_idle_ne_leave _ _ _ _)
      | _ => simp [isIdle, Phase.isIdle, hphase]

/-- **Every call on at least one byte leaves less to do.** -/
theorem work_feed_lt (receiver : Receiver) {bytes : Bytes} (hne : bytes ≠ []) :
    (receiver.feed bytes).receiver.work (bytes.drop (receiver.feed bytes).taken)
      < receiver.work bytes := by
  have hle := taken_feed_le receiver bytes
  have hpos : 0 < bytes.length := List.length_pos_iff.mpr hne
  simp only [work, List.length_drop]
  by_cases htaken : (receiver.feed bytes).taken = 0
  · have := isIdle_of_taken_eq_zero hne htaken
    simp [htaken, this.1, this.2]
  · split <;> split <;> omega

/-! ## Feeding a whole run -/

/-- Feeds bytes, and the rest again after each report, until none is left.  There is one entry for
each call: the number of bytes it took, and what it reported. -/
def feedAll (receiver : Receiver) : Bytes → List (Nat × Option Report) × Receiver
  | [] => ([], receiver)
  | b :: rest =>
    let fed := receiver.feed (b :: rest)
    let (calls, last) := fed.receiver.feedAll ((b :: rest).drop fed.taken)
    ((fed.taken, fed.report?) :: calls, last)
termination_by bytes => receiver.work bytes
decreasing_by exact work_feed_lt receiver (List.cons_ne_nil _ _)

/-! ## Looking for one report -/

/-- What came of looking for a report: what was found, unless the run ended first; the number of
bytes taken; and the receiver afterwards. -/
structure Sought (α : Type) where
  found? : Option α
  taken : Nat
  receiver : Receiver

/-- Feeds bytes up to the first report that `want` picks out; other reports are passed over. -/
def seek {α : Type} (want : Report → Option α) (receiver : Receiver) : Bytes → Sought α
  | [] => ⟨none, 0, receiver⟩
  | b :: rest =>
    let fed := receiver.feed (b :: rest)
    match fed.report? with
    | none => ⟨none, fed.taken, fed.receiver⟩
    | some report =>
      match want report with
      | some a => ⟨some a, fed.taken, fed.receiver⟩
      | none =>
        let sought := fed.receiver.seek want ((b :: rest).drop fed.taken)
        { sought with taken := fed.taken + sought.taken }
termination_by bytes => receiver.work bytes
decreasing_by exact work_feed_lt receiver (List.cons_ne_nil _ _)

/-- **Looking through at least one byte leaves less to do.** -/
theorem work_seek_lt {α : Type} (want : Report → Option α) (receiver : Receiver) (bytes : Bytes)
    (hne : bytes ≠ []) :
    (receiver.seek want bytes).receiver.work (bytes.drop (receiver.seek want bytes).taken)
      < receiver.work bytes := by
  fun_induction seek want receiver bytes with
  | case1 => exact absurd rfl hne
  | case2 receiver => exact work_feed_lt receiver hne
  | case3 receiver => exact work_feed_lt receiver hne
  | case4 receiver b rest fed _ _ _ sought ih =>
    have hfed : fed.receiver.work ((b :: rest).drop fed.taken) < receiver.work (b :: rest) :=
      work_feed_lt receiver hne
    simp only [← List.drop_drop]
    by_cases hrest : (b :: rest).drop fed.taken = []
    · have hnone : sought = ⟨none, 0, fed.receiver⟩ := by
        simp only [sought, hrest, seek]
      simpa [hnone] using hfed
    · exact Nat.lt_trans (ih hrest) hfed

end Receiver

end FieldBus
