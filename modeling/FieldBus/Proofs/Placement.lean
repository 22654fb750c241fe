import FieldBus.Proofs.Held

/-!
# Where frames stand in the stream

No frame is ever made up.  Whatever the stream, however it is cut, and wherever the host resets the
receiver, the bytes of a frame that is reported stand in the stream in one piece, as a word of that
frame, and end where the report comes.  Nothing that happened before happened within them
(**`Receiver.Course.word_of_frame`**).  So the words of different frames follow one another, and
neither a broken frame nor what was reset lends a byte to a later frame.

* `Receiver.Course` — a receiver at work on a stream, with everything that happened so far and the
  number of bytes that were taken when it happened.
* `Receiver.Course.held_behind` — the invariant: what the receiver holds came behind the last thing
  that happened.  Both a report and a reset leave it holding nothing
  (`Receiver.Follows.feed_of_report`), and in between it holds only what it takes.
-/

namespace FieldBus

namespace Receiver

/-- What can happen to a receiver at work. -/
inductive Happening where
  | report (report : Report)
  | reset
  deriving DecidableEq

/-- A receiver at work on a stream.  Each time it is fed some of what comes next; what it leaves is
again what comes next.  At any point it may be reset.  `happenings` are the reports and the resets
so far, each with the number of bytes that were taken by then, and `past` are the bytes taken. -/
inductive Course (receiver : Receiver) (stream : Bytes) :
    List (Nat × Happening) → Bytes → Receiver → Prop
  | start : Course receiver stream [] [] receiver
  | feed {happenings : List (Nat × Happening)} {past : Bytes} {mid : Receiver} (chunk : Bytes)
      (hnext : past ++ chunk <+: stream) (h : Course receiver stream happenings past mid) :
      Course receiver stream
        (happenings ++ ((mid.feed chunk).report?.map fun report =>
          (past.length + (mid.feed chunk).taken, Happening.report report)).toList)
        (past ++ chunk.take (mid.feed chunk).taken) (mid.feed chunk).receiver
  | reset {happenings : List (Nat × Happening)} {past : Bytes} {mid : Receiver}
      (h : Course receiver stream happenings past mid) :
      Course receiver stream (happenings ++ [(past.length, .reset)]) past mid.reset

namespace Course

variable {stream past : Bytes} {happenings before : List (Nat × Happening)} {last : Receiver}
  {traffic : Traffic} {mode : CheckMode}

lemma length_append_taken (past chunk : Bytes) (receiver : Receiver) :
    (past ++ chunk.take (receiver.feed chunk).taken).length
      = past.length + (receiver.feed chunk).taken := by
  rw [List.length_append, List.length_take_of_le (taken_feed_le receiver chunk)]

/-- What is taken is a beginning of the stream. -/
lemma past_isPrefix {receiver : Receiver} (h : Course receiver stream happenings past last) :
    past <+: stream := by
  induction h with
  | start => exact List.nil_prefix
  | feed chunk hnext _ _ =>
      exact ((List.prefix_append_right_inj _).mpr (List.take_prefix _ _)).trans hnext
  | reset _ ih => exact ih

/-- What the bytes behind a beginning of the stream end with stands in the stream behind that
beginning. -/
lemma exists_start_of_isSuffix {front back word : Bytes} (hstream : front ++ back <+: stream)
    (hsuffix : word <:+ back) :
    ∃ start, front.length ≤ start ∧ start + word.length = (front ++ back).length ∧
      (stream.take (front ++ back).length).drop start = word := by
  obtain ⟨skipped, rfl⟩ := hsuffix
  obtain ⟨rest, rfl⟩ := hstream
  refine ⟨(front ++ skipped).length, ?_, ?_, ?_⟩
  · exact (List.prefix_append front skipped).length_le
  · rw [← List.append_assoc, ← List.length_append]
  · rw [← List.append_assoc, List.take_left, List.drop_left]

/-- What happened up to some point, and one more thing behind it. -/
lemma forall_le_concat {n m : Nat} {what : Happening}
    (h : ∀ happening ∈ happenings, happening.1 ≤ n) (hle : n ≤ m) :
    ∀ happening ∈ happenings ++ [(m, what)], happening.1 ≤ m := by
  intro happening hmem
  rcases List.mem_append.mp hmem with hmem | hmem
  · exact (h happening hmem).trans hle
  · obtain rfl := List.mem_singleton.mp hmem
    exact Nat.le_refl m

/-- **What a receiver holds came behind the last thing that happened.** -/
lemma held_behind (h : Course (.start traffic mode) stream happenings past last) :
    ∃ front held, past = front ++ held ∧ last.Follows traffic mode held ∧
      ∀ happening ∈ happenings, happening.1 ≤ front.length := by
  induction h with
  | start => exact ⟨[], [], rfl, follows_start, by simp⟩
  | @feed happenings past mid chunk _ _ ih =>
      obtain ⟨front, held, rfl, hfollows, hbefore⟩ := ih
      cases hreport : (mid.feed chunk).report? with
      | none =>
          refine ⟨front, _, List.append_assoc .., (hfollows.feed chunk).1, ?_⟩
          simpa using hbefore
      | some report =>
          refine ⟨_, [], (List.append_nil _).symm, hfollows.feed_of_report hreport, ?_⟩
          rw [length_append_taken]
          exact forall_le_concat hbefore (by rw [List.length_append]; omega)
  | @reset happenings past mid _ ih =>
      obtain ⟨front, held, rfl, hfollows, hbefore⟩ := ih
      refine ⟨_, [], (List.append_nil _).symm, hfollows.inPhase List.nil_suffix .idle, ?_⟩
      exact forall_le_concat hbefore (List.prefix_append front held).length_le

/-- **No frame is made up.**  A frame that is reported when `stop` bytes were taken has a word that
stands in the stream and ends there, and everything that happened before happened at the beginning
of the word or in front of it. -/
theorem word_of_frame {frame : Frame} {stop : Nat}
    (h : Course (.start traffic mode) stream happenings past last)
    (hframe : before ++ [(stop, .report (.frame frame))] <+: happenings) :
    ∃ start < stop, stop ≤ stream.length ∧
      frame.WireWord traffic mode ((stream.take stop).drop start) ∧
      ∀ happening ∈ before, happening.1 ≤ start := by
  induction h with
  | start => simp at hframe
  | @reset happenings past mid _ ih =>
      rcases List.prefix_concat_iff.mp hframe with heq | hframe
      · cases (List.cons.inj (List.append_inj' heq rfl).2).1
      · exact ih hframe
  | @feed happenings past mid chunk hnext hcourse ih =>
      cases hreport : (mid.feed chunk).report? with
      | none =>
          rw [hreport, Option.map_none, Option.toList_none, List.append_nil] at hframe
          exact ih hframe
      | some report =>
          rw [hreport, Option.map_some, Option.toList_some] at hframe
          rcases List.prefix_concat_iff.mp hframe with heq | hframe
          · -- the frame is what this feeding reports
            obtain ⟨rfl, hlast⟩ := List.append_inj' heq rfl
            obtain ⟨rfl, hhappening⟩ := Prod.mk.inj (List.cons.inj hlast).1
            obtain rfl := Happening.report.inj hhappening
            obtain ⟨front, held, rfl, hfollows, hbefore⟩ := hcourse.held_behind
            obtain ⟨word, hsuffix, hword⟩ := (hfollows.feed chunk).2 frame hreport
            have hstream := (hcourse.feed chunk hnext).past_isPrefix
            rw [← length_append_taken]
            have hle := hstream.length_le
            rw [List.append_assoc] at hstream hle ⊢
            obtain ⟨start, hfront, hstart, hslice⟩ := exists_start_of_isSuffix hstream hsuffix
            have hpos := List.length_pos_iff.mpr hword.ne_nil
            refine ⟨start, by omega, hle, by rwa [hslice], ?_⟩
            intro happening hmem
            exact (hbefore happening hmem).trans hfront
          · exact ih hframe

/-- An acknowledgement behind a read request that was reset after its first digit. -/
theorem word_of_frame_behind_reset :
    Course (.start .commands .plain) [0x02, 0x31, 0x06]
        [(2, .reset), (3, .report (.frame (.reply .ack)))] [0x02, 0x31, 0x06]
        (.start .commands .plain) ∧
      ∃ start < 3, 3 ≤ ([0x02, 0x31, 0x06] : Bytes).length ∧
        (Frame.reply .ack).WireWord .commands .plain
          ((([0x02, 0x31, 0x06] : Bytes).take 3).drop start) ∧
        ∀ happening ∈ [((2, .reset) : Nat × Happening)], happening.1 ≤ start := by
  have hcourse : Course (.start .commands .plain) [0x02, 0x31, 0x06]
      [(2, .reset), (3, .report (.frame (.reply .ack)))] [0x02, 0x31, 0x06]
      (.start .commands .plain) :=
    .feed [0x06] (List.prefix_refl _) (.reset (.feed [0x02, 0x31] ⟨[0x06], rfl⟩ .start))
  exact ⟨hcourse, word_of_frame hcourse (List.prefix_refl _)⟩

end Course

end Receiver

end FieldBus
