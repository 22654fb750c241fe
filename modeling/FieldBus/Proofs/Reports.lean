import FieldBus.Proofs.Feeding

/-!
# What a run of bytes comes to

A run is fed in pieces: whoever owns the receiver stops at a report and feeds the rest again, and
the bytes come in chunks anyway.  `Receiver.reports` is what all of that comes to, the list of
reports of the whole run, and `Receiver.after` is the receiver behind it.  `Receiver.timeline` has
the same reports, each with the number of bytes that were taken when it came.

* `Receiver.timeline_append`, **`Receiver.reports_append`**, `Receiver.after_append` — a run may be
  cut anywhere.  A byte that is left at the end of one piece is taken at the beginning of the next,
  so the calls differ; the reports, and how many bytes were taken for each, do not.
* `Receiver.Passes.reports`, `Receiver.Passes.after` — what passes gives no report.
* `Receiver.timeline_seek`, **`Receiver.reports_seek`**, `Receiver.after_seek` — looking for a
  report passes over a beginning of the list, and leaves the rest of it.
* `Receiver.picked` — what is wanted of a timeline; if it tells which report it was, then what is
  picked is a part of the timeline (`Receiver.picked_picked`).
-/

namespace FieldBus

namespace Receiver

variable {receiver : Receiver} {b : UInt8} {bytes : Bytes}

/-- The reports among calls, each with the number of bytes that were taken when it came; `past`
were taken before the first call. -/
def stamped (past : Nat) : List (Nat × Option Report) → List (Nat × Report)
  | [] => []
  | (taken, report?) :: later =>
    report?.toList.map (past + taken, ·) ++ stamped (past + taken) later

/-- The reports of a run that begins behind `past` bytes. -/
def timeline (receiver : Receiver) (past : Nat) (bytes : Bytes) : List (Nat × Report) :=
  stamped past (receiver.feedAll bytes).1

/-- All reports of a run, in their order. -/
def reports (receiver : Receiver) (bytes : Bytes) : List Report :=
  (receiver.feedAll bytes).1.filterMap Prod.snd

/-- The receiver behind a run. -/
def after (receiver : Receiver) (bytes : Bytes) : Receiver := (receiver.feedAll bytes).2

lemma map_snd_stamped (past : Nat) (calls : List (Nat × Option Report)) :
    (stamped past calls).map Prod.snd = calls.filterMap Prod.snd := by
  induction calls generalizing past with
  | nil => rfl
  | cons call later ih =>
      obtain ⟨taken, _ | report⟩ := call
      · exact ih (past + taken)
      · exact congrArg (List.cons report) (ih (past + taken))

lemma map_snd_timeline (past : Nat) :
    (receiver.timeline past bytes).map Prod.snd = receiver.reports bytes := by
  rw [timeline, map_snd_stamped, reports]

@[simp] lemma timeline_nil (past : Nat) : receiver.timeline past [] = [] := by
  rw [timeline, feedAll_nil, stamped]

@[simp] lemma reports_nil : receiver.reports [] = [] := by simp [reports]

@[simp] lemma after_nil : receiver.after [] = receiver := by simp [after]

/-- The first call gives the first report, if there is one, and the rest is fed again. -/
lemma timeline_eq_feed (receiver : Receiver) (past : Nat) (bytes : Bytes) :
    receiver.timeline past bytes
      = (receiver.feed bytes).report?.toList.map (past + (receiver.feed bytes).taken, ·) ++
        (receiver.feed bytes).receiver.timeline (past + (receiver.feed bytes).taken)
          (bytes.drop (receiver.feed bytes).taken) := by
  cases bytes with
  | nil => simp [feed]
  | cons b rest =>
      rw [timeline, feedAll_of_feed (List.cons_ne_nil b rest) rfl]
      rfl

lemma reports_eq_feed (receiver : Receiver) (bytes : Bytes) :
    receiver.reports bytes = (receiver.feed bytes).report?.toList ++
      (receiver.feed bytes).receiver.reports (bytes.drop (receiver.feed bytes).taken) := by
  rw [← map_snd_timeline 0, timeline_eq_feed, List.map_append, map_snd_timeline]
  cases (receiver.feed bytes).report? <;> rfl

lemma after_eq_feed (receiver : Receiver) (bytes : Bytes) :
    receiver.after bytes
      = (receiver.feed bytes).receiver.after (bytes.drop (receiver.feed bytes).taken) := by
  cases bytes with
  | nil => rfl
  | cons b rest =>
      rw [after, feedAll_of_feed (List.cons_ne_nil b rest) rfl]
      rfl

/-! ## Runs without a report -/

/-- Feeding changes nothing of a receiver but its phase. -/
lemma receiver_feed (receiver : Receiver) (bytes : Bytes) :
    (receiver.feed bytes).receiver = receiver.inPhase (receiver.feed bytes).receiver.phase := by
  induction bytes generalizing receiver with
  | nil => rfl
  | cons b rest ih =>
      cases hstep : receiver.step b with
      | silent next =>
          rw [feed_cons_of_silent hstep]
          exact ih (receiver.inPhase next)
      | report report next =>
          rw [feed_cons_of_report hstep]
          rfl
      | leave defect =>
          rw [feed_cons_of_leave hstep]
          rfl

/-- Feeding leaves nothing behind that a reset would not drop. -/
lemma reset_feed (receiver : Receiver) (bytes : Bytes) :
    (receiver.feed bytes).receiver.reset = receiver.reset := by
  rw [receiver_feed]
  rfl

lemma reset_after (receiver : Receiver) (bytes : Bytes) :
    (receiver.after bytes).reset = receiver.reset := by
  induction receiver, bytes using feedAll.induct with
  | case1 receiver => rw [after_nil]
  | case2 receiver b rest fed _ _ _ ih =>
      rw [after_eq_feed]
      exact ih.trans (reset_feed receiver (b :: rest))

lemma passes_of_report_eq_none (h : (receiver.feed bytes).report? = none) :
    receiver.Passes bytes (receiver.feed bytes).receiver.phase := by
  rw [Passes, ← receiver_feed, ← taken_feed_of_none h, ← h]

lemma Passes.timeline {next : Phase} (h : receiver.Passes bytes next) (past : Nat) :
    receiver.timeline past bytes = [] := by
  rw [Passes] at h
  rw [timeline_eq_feed, h]
  simp

lemma Passes.reports {next : Phase} (h : receiver.Passes bytes next) :
    receiver.reports bytes = [] := by
  rw [← map_snd_timeline 0, h.timeline, List.map_nil]

lemma Passes.after {next : Phase} (h : receiver.Passes bytes next) :
    receiver.after bytes = receiver.inPhase next := by
  rw [Passes] at h
  rw [after_eq_feed, h]
  simp

/-! ## Cutting a run -/

lemma feed_append_of_report {report : Report} (h : (receiver.feed bytes).report? = some report)
    (more : Bytes) : receiver.feed (bytes ++ more) = receiver.feed bytes := by
  obtain ⟨front, b, rest, phase, rfl, hpasses, hlast⟩ := exists_step_of_report h
  rw [List.append_assoc, List.cons_append, hpasses.feed_append, hpasses.feed_append]
  rcases hlast with ⟨next, hstep, -⟩ | ⟨defect, -, hstep, -⟩
  · rw [feed_cons_of_report hstep, feed_cons_of_report hstep]
  · rw [feed_cons_of_leave hstep, feed_cons_of_leave hstep]

/-- What a run comes to, cut in two: the second piece finds the receiver behind the first. -/
lemma feedAll_append (receiver : Receiver) (past : Nat) (bytes more : Bytes) :
    receiver.timeline past (bytes ++ more) = receiver.timeline past bytes ++
        (receiver.after bytes).timeline (past + bytes.length) more ∧
      receiver.after (bytes ++ more) = (receiver.after bytes).after more := by
  induction receiver, bytes using feedAll.induct generalizing past with
  | case1 receiver => simp
  | case2 receiver b rest fed _ _ _ ih =>
      cases hreport : fed.report? with
      | none =>
          -- the first piece passes, so the first call goes on into the second
          have hpasses := passes_of_report_eq_none hreport
          have hdrop : ∀ taken, ((b :: rest) ++ more).drop ((b :: rest).length + taken)
              = more.drop taken := fun _ => List.drop_length_add_append ..
          rw [hpasses.timeline, hpasses.after, List.nil_append]
          rw [timeline_eq_feed, after_eq_feed, hpasses.feed_append]
          dsimp only
          rw [hdrop, ← Nat.add_assoc, ← timeline_eq_feed, ← after_eq_feed]
          exact ⟨rfl, rfl⟩
      | some report =>
          -- a report ends the first call within the first piece
          have hfeed := feed_append_of_report hreport more
          have hle : fed.taken ≤ (b :: rest).length := taken_feed_le receiver (b :: rest)
          have hdrop : ((b :: rest) ++ more).drop fed.taken
              = (b :: rest).drop fed.taken ++ more := List.drop_append_of_le_length hle
          have hlength : past + fed.taken + ((b :: rest).drop fed.taken).length
              = past + (b :: rest).length := by
            rw [List.length_drop]
            omega
          obtain ⟨htimeline, hafter⟩ := ih (past + fed.taken)
          rw [hlength] at htimeline
          rw [timeline_eq_feed receiver past ((b :: rest) ++ more), hfeed, hdrop, htimeline,
            timeline_eq_feed receiver past (b :: rest),
            after_eq_feed receiver ((b :: rest) ++ more), hfeed, hdrop, hafter,
            after_eq_feed receiver (b :: rest), List.append_assoc]
          exact ⟨rfl, rfl⟩

/-- A run may be cut anywhere, and every report comes where it came. -/
theorem timeline_append (receiver : Receiver) (past : Nat) (bytes more : Bytes) :
    receiver.timeline past (bytes ++ more) = receiver.timeline past bytes ++
      (receiver.after bytes).timeline (past + bytes.length) more :=
  (feedAll_append receiver past bytes more).1

/-- **A run may be cut anywhere**: the reports are those of the pieces, one after the other. -/
theorem reports_append (receiver : Receiver) (bytes more : Bytes) :
    receiver.reports (bytes ++ more)
      = receiver.reports bytes ++ (receiver.after bytes).reports more := by
  have htimeline := timeline_append receiver 0 bytes more
  rw [← map_snd_timeline 0, htimeline, List.map_append, map_snd_timeline, map_snd_timeline]

theorem after_append (receiver : Receiver) (bytes more : Bytes) :
    receiver.after (bytes ++ more) = (receiver.after bytes).after more :=
  (feedAll_append receiver 0 bytes more).2

lemma Passes.reports_append {next : Phase} (h : receiver.Passes bytes next) (more : Bytes) :
    receiver.reports (bytes ++ more) = (receiver.inPhase next).reports more := by
  rw [Receiver.reports_append, h.reports, h.after, List.nil_append]

lemma Passes.timeline_append {next : Phase} (h : receiver.Passes bytes next) (past : Nat)
    (more : Bytes) :
    receiver.timeline past (bytes ++ more)
      = (receiver.inPhase next).timeline (past + bytes.length) more := by
  rw [Receiver.timeline_append, h.timeline, h.after, List.nil_append]

lemma Passes.after_append {next : Phase} (h : receiver.Passes bytes next) (more : Bytes) :
    receiver.after (bytes ++ more) = (receiver.inPhase next).after more := by
  rw [Receiver.after_append, h.after]

/-- A byte that is taken with a report gives that report, and the rest is fed from there. -/
lemma reports_cons_of_report {report : Report} {next : Phase}
    (h : receiver.step b = .report report next) (rest : Bytes) :
    receiver.reports (b :: rest) = report :: (receiver.inPhase next).reports rest := by
  rw [reports_eq_feed, feed_cons_of_report h]
  rfl

lemma after_cons_of_report {report : Report} {next : Phase}
    (h : receiver.step b = .report report next) (rest : Bytes) :
    receiver.after (b :: rest) = (receiver.inPhase next).after rest := by
  rw [after_eq_feed, feed_cons_of_report h]
  rfl

/-! ## Picking out of a timeline -/

section Picked

variable {α β : Type}

/-- What is wanted of a timeline, each piece with the number of bytes that were taken when it
came. -/
def picked (want : α → Option β) (entries : List (Nat × α)) : List (Nat × β) :=
  entries.filterMap fun entry => (want entry.2).map (entry.1, ·)

lemma picked_append (want : α → Option β) (entries more : List (Nat × α)) :
    picked want (entries ++ more) = picked want entries ++ picked want more :=
  List.filterMap_append

lemma map_snd_picked (want : α → Option β) (entries : List (Nat × α)) :
    (picked want entries).map Prod.snd = (entries.map Prod.snd).filterMap want := by
  have hentry : ∀ entry : Nat × α,
      ((want entry.2).map (entry.1, ·)).map Prod.snd = want entry.2 := by
    intro entry
    cases want entry.2 <;> rfl
  simp only [picked, List.map_filterMap, List.filterMap_map, hentry, Function.comp_def]

lemma picked_some (f : α → β) (entries : List (Nat × α)) :
    picked (fun a => some (f a)) entries = entries.map fun entry => (entry.1, f entry.2) := by
  simp [picked]

/-- If what is wanted of a thing tells which thing it was, then to pick is to leave out. -/
lemma picked_picked {want : α → Option β} {back : β → Option α} {meant : α → Prop}
    [DecidablePred meant] (h : ∀ a, (want a).bind back = if meant a then some a else none)
    (entries : List (Nat × α)) :
    picked back (picked want entries) = entries.filter fun entry => meant entry.2 := by
  have hentry : (fun entry : Nat × α => ((want entry.2).map (entry.1, ·)).bind
      fun found => (back found.2).map (found.1, ·)) = Option.guard fun entry => meant entry.2 := by
    funext ⟨taken, a⟩
    calc ((want a).map (taken, ·)).bind (fun found => (back found.2).map (found.1, ·))
        = ((want a).bind back).map (taken, ·) := by cases want a <;> rfl
      _ = Option.guard (fun entry => meant entry.2) (taken, a) := by
        by_cases hmeant : meant a <;> simp [h a, hmeant, Option.guard]
  rw [picked, picked, List.filterMap_filterMap, hentry, List.filterMap_eq_filter]

end Picked

/-! ## Looking through a run -/

section Seek

variable {α : Type} (want : Report → Option α)

lemma taken_seek_of_none (h : (receiver.seek want bytes).found? = none) :
    (receiver.seek want bytes).taken = bytes.length := by
  fun_induction seek want receiver bytes with
  | case1 => rfl
  | case2 receiver b rest fed hreport => exact taken_feed_of_none hreport
  | case3 => cases h
  | case4 receiver b rest fed report hreport hwant sought ih =>
      have hle : fed.taken ≤ (b :: rest).length := taken_feed_le receiver (b :: rest)
      have hrest : sought.taken = ((b :: rest).drop fed.taken).length := ih h
      rw [List.length_drop] at hrest
      dsimp only
      omega

/-- Looking for a report passes over a beginning of the timeline, of which only the last report can
be wanted, and what the receiver has left to do gives the rest of it. -/
theorem timeline_seek (receiver : Receiver) (past : Nat) (bytes : Bytes) :
    ∃ passed, receiver.timeline past bytes = passed ++
        (receiver.seek want bytes).receiver.timeline (past + (receiver.seek want bytes).taken)
          (bytes.drop (receiver.seek want bytes).taken) ∧
      picked want passed = ((receiver.seek want bytes).found?.map
        (past + (receiver.seek want bytes).taken, ·)).toList := by
  fun_induction seek want receiver bytes generalizing past with
  | case1 receiver => exact ⟨[], rfl, rfl⟩
  | case2 receiver b rest fed hreport =>
      refine ⟨[], ?_, rfl⟩
      rw [timeline_eq_feed, hreport]
      rfl
  | case3 receiver b rest fed report hreport a hwant =>
      refine ⟨[(past + fed.taken, report)], ?_, by simp [picked, hwant]⟩
      rw [timeline_eq_feed, hreport]
      rfl
  | case4 receiver b rest fed report hreport hwant sought ih =>
      obtain ⟨passed, htimeline, hpassed⟩ := ih (past + fed.taken)
      rw [Nat.add_assoc] at htimeline hpassed
      refine ⟨(past + fed.taken, report) :: passed, ?_, ?_⟩
      · rw [timeline_eq_feed, hreport]
        change _ :: fed.receiver.timeline (past + fed.taken) ((b :: rest).drop fed.taken) = _
        rw [htimeline, List.drop_drop]
        rfl
      · rw [← hpassed, picked, List.filterMap_cons, hwant]
        rfl

/-- **Looking for a report passes over a beginning of the reports**, of which only the last can be
wanted, and what the receiver has left to do gives the others. -/
theorem reports_seek (receiver : Receiver) (bytes : Bytes) :
    ∃ passed, receiver.reports bytes = passed ++
        (receiver.seek want bytes).receiver.reports
          (bytes.drop (receiver.seek want bytes).taken) ∧
      passed.filterMap want = (receiver.seek want bytes).found?.toList := by
  obtain ⟨passed, htimeline, hpassed⟩ := timeline_seek want receiver 0 bytes
  refine ⟨passed.map Prod.snd, ?_, ?_⟩
  · rw [← map_snd_timeline 0, htimeline, List.map_append, map_snd_timeline]
  · rw [← map_snd_picked, hpassed]
    cases (receiver.seek want bytes).found? <;> rfl

/-- What is found is what some report is wanted for. -/
lemma exists_of_found {a : α} (h : (receiver.seek want bytes).found? = some a) :
    ∃ report, want report = some a := by
  obtain ⟨passed, -, hpassed⟩ := reports_seek want receiver bytes
  rw [h, Option.toList_some] at hpassed
  obtain ⟨report, -, hreport⟩ :=
    List.mem_filterMap.mp (hpassed ▸ List.mem_singleton_self a : a ∈ passed.filterMap want)
  exact ⟨report, hreport⟩

lemma after_seek (receiver : Receiver) (bytes : Bytes) :
    (receiver.seek want bytes).receiver.after (bytes.drop (receiver.seek want bytes).taken)
      = receiver.after bytes := by
  fun_induction seek want receiver bytes with
  | case1 receiver => rfl
  | case2 receiver b rest fed => exact (after_eq_feed receiver (b :: rest)).symm
  | case3 receiver b rest fed => exact (after_eq_feed receiver (b :: rest)).symm
  | case4 receiver b rest fed report hreport hwant sought ih =>
      rw [after_eq_feed receiver (b :: rest), ← ih, List.drop_drop]

lemma reset_seek (receiver : Receiver) (bytes : Bytes) :
    (receiver.seek want bytes).receiver.reset = receiver.reset := by
  fun_induction seek want receiver bytes with
  | case1 receiver => rfl
  | case2 receiver b rest fed => exact reset_feed receiver (b :: rest)
  | case3 receiver b rest fed => exact reset_feed receiver (b :: rest)
  | case4 receiver b rest fed report hreport hwant sought ih =>
      exact ih.trans (reset_feed receiver (b :: rest))

/-- In a run without a wanted report nothing is found, and all of it is taken. -/
lemma seek_of_unwanted (h : (receiver.reports bytes).filterMap want = []) :
    receiver.seek want bytes = ⟨none, bytes.length, receiver.after bytes⟩ := by
  obtain ⟨passed, hreports, hpassed⟩ := reports_seek want receiver bytes
  have hafter := after_seek want receiver bytes
  have hnone : (receiver.seek want bytes).found? = none := by
    rw [hreports, List.filterMap_append, hpassed, List.append_eq_nil_iff] at h
    exact Option.toList_eq_nil_iff.mp h.1
  have htaken := taken_seek_of_none want hnone
  rw [htaken, List.drop_length, after_nil] at hafter
  rw [← hnone, ← htaken, ← hafter]

lemma taken_seek_le (receiver : Receiver) (bytes : Bytes) :
    (receiver.seek want bytes).taken ≤ bytes.length := by
  fun_induction seek want receiver bytes with
  | case1 => exact Nat.le_refl 0
  | case2 receiver b rest => exact taken_feed_le receiver (b :: rest)
  | case3 receiver b rest => exact taken_feed_le receiver (b :: rest)
  | case4 receiver b rest fed report hreport hwant sought ih =>
      have hle : fed.taken ≤ (b :: rest).length := taken_feed_le receiver (b :: rest)
      have hrest : sought.taken ≤ ((b :: rest).drop fed.taken).length := ih
      rw [List.length_drop] at hrest
      dsimp only
      omega

/-- If all defects are wanted, then looking through bytes without taking any finds a defect. -/
lemma seek_of_taken_eq_zero (hwant : ∀ defect, want (.defect defect) ≠ none) (hne : bytes ≠ [])
    (h : (receiver.seek want bytes).taken = 0) :
    receiver.isIdle = false ∧ (receiver.seek want bytes).receiver.isIdle = true ∧
      ∃ defect, (receiver.seek want bytes).found? = want (.defect defect) := by
  fun_induction seek want receiver bytes with
  | case1 => exact absurd rfl hne
  | case2 receiver b rest fed hreport =>
      obtain ⟨defect, hdefect⟩ := exists_defect_of_taken_eq_zero hne h
      cases hreport.symm.trans hdefect
  | case3 receiver b rest fed report hreport a ha =>
      obtain ⟨defect, hdefect⟩ := exists_defect_of_taken_eq_zero hne h
      obtain ⟨hbefore, hafter⟩ := isIdle_of_taken_eq_zero hne h
      obtain rfl := Option.some.inj (hreport.symm.trans hdefect)
      exact ⟨hbefore, hafter, defect, ha.symm⟩
  | case4 receiver b rest fed report hreport hnone sought =>
      obtain ⟨defect, hdefect⟩ := exists_defect_of_taken_eq_zero hne (Nat.add_eq_zero_iff.mp h).1
      obtain rfl := Option.some.inj (hreport.symm.trans hdefect)
      exact absurd hnone (hwant defect)

/-- With more bytes behind those that are looked through, the rest of the timeline has them too. -/
lemma timeline_seek_append (receiver : Receiver) (past : Nat) (bytes more : Bytes) :
    ∃ passed, receiver.timeline past (bytes ++ more) = passed ++
        (receiver.seek want bytes).receiver.timeline (past + (receiver.seek want bytes).taken)
          (bytes.drop (receiver.seek want bytes).taken ++ more) ∧
      picked want passed = ((receiver.seek want bytes).found?.map
        (past + (receiver.seek want bytes).taken, ·)).toList := by
  obtain ⟨passed, htimeline, hpassed⟩ := timeline_seek want receiver past bytes
  have hlength : past + (receiver.seek want bytes).taken
        + (bytes.drop (receiver.seek want bytes).taken).length = past + bytes.length := by
    have hle := taken_seek_le want receiver bytes
    rw [List.length_drop]
    omega
  refine ⟨passed, ?_, hpassed⟩
  rw [timeline_append, timeline_append, after_seek, hlength, htimeline, List.append_assoc]

/-- What is kept of the part of a timeline that is behind begins what is kept of all of it, and is
all that is kept of it once nothing is to come. -/
lemma filter_behind {entries behind : List (Nat × Report)} {past : Nat}
    (h : entries = behind ++ receiver.timeline past bytes) (keep : Nat × Report → Bool) :
    behind.filter keep <+: entries.filter keep ∧
      (bytes = [] → behind.filter keep = entries.filter keep) := by
  subst h
  refine ⟨?_, ?_⟩
  · rw [List.filter_append]
    exact List.prefix_append _ _
  · rintro rfl
    rw [timeline_nil, List.append_nil]

/-- What is still to come of a stream of which some of the next chunk was taken. -/
lemma eq_drop_append {past chunk more rest : Bytes} {taken : Nat}
    (h : past ++ chunk ++ more = past ++ chunk.take taken ++ rest) :
    rest = chunk.drop taken ++ more := by
  rw [List.append_assoc, List.append_assoc] at h
  have hchunk := List.append_cancel_left h
  conv_lhs at hchunk => rw [← List.take_append_drop taken chunk, List.append_assoc]
  exact (List.append_cancel_left hchunk).symm

end Seek

end Receiver

end FieldBus
