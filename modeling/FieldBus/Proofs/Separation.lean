import FieldBus.Proofs.Overhearing
import FieldBus.Proofs.Provenance

/-!
# The two sides are heard apart

What the stations send decides when a listener waits for an answer, and that decides what it makes
of the next bytes of the controller: a silence comes before them, and then they are presented again.
A broken frame may leave its last byte to be presented again as well.  None of this shows in what is
told of the controller.  Apart from the silences it is what a receiver reports that hears the
controller alone, without the replies, each when as many bytes were taken
(**`Monitor.Course.sent_eq_commands`**).

Two calls that take nothing never follow one another, whatever the stations send in between, so
bytes that are presented again and again are taken in the end.

* `Monitor.Course` — a listener at work on what a controller sends, with the stations in between.
* `Monitor.timeline_hearController` — what one call makes of the timeline, and
  `Monitor.Course.timeline_eq`, what all of them do.
* `Monitor.Settled` — the invariant: while an answer is due the receiver is between frames.
* `Monitor.IsQuiet` — the state behind a call that took nothing.  The next call does take something.
-/

namespace FieldBus

/-- Whether a report is of a reply. -/
def Report.isReply : Report → Bool
  | frame (.reply _) => true
  | _ => false

namespace Monitor

variable {monitor mid last : Monitor} {mode : CheckMode} {stream past bytes : Bytes} {calls : Nat}
  {events : List (Nat × Sent)}

/-- The report that an event on the controller's side stands for.  Silence is none. -/
def Sent.report? : Sent → Option Report
  | request r => some (.frame (.request r))
  | silence _ => none
  | defect d => some (.defect d)

/-- All reports but the replies are told, and what is told says which report it was. -/
lemma report?_sent? (report : Report) :
    (sent? report).bind Sent.report? = if report.isReply = false then some report else none := by
  rcases report with (request | reply) | defect <;> rfl

/-- A listener at work on what a controller sends.  Each time it hears some of what comes next; what
it leaves is again what comes next.  In between it hears any bytes of the stations.  `calls` is the
number of calls with bytes of the controller, `events` is what they told, each with the number of
bytes taken by then, and `past` are the bytes taken. -/
inductive Course (monitor : Monitor) (stream : Bytes) :
    Nat → List (Nat × Sent) → Bytes → Monitor → Prop
  | start : Course monitor stream 0 [] [] monitor
  | controller {calls : Nat} {events : List (Nat × Sent)} {past : Bytes} {mid : Monitor}
      {heard : Overheard Sent} (chunk : Bytes) (h : Course monitor stream calls events past mid)
      (hnext : past ++ chunk <+: stream) (hheard : mid.hearController chunk = heard) :
      Course monitor stream (if chunk = [] then calls else calls + 1)
        (events ++ (heard.event?.map (past.length + heard.taken, ·)).toList)
        (past ++ chunk.take heard.taken) heard.monitor
  | nodes {calls : Nat} {events : List (Nat × Sent)} {past : Bytes} {mid : Monitor} (bytes : Bytes)
      (h : Course monitor stream calls events past mid) :
      Course monitor stream calls events past (mid.hearNodes bytes).monitor

/-! ## Nothing is lost and nothing is told twice -/

/-- Hearing the stations leaves the receiver for the controller alone. -/
lemma commands_hearNodes (monitor : Monitor) (bytes : Bytes) :
    (monitor.hearNodes bytes).monitor.commands = monitor.commands := by
  by_cases hne : bytes = []
  · rw [hne, hearNodes_nil]
  cases hawaited : monitor.awaited? with
  | none => rw [hearNodes_of_quiet hawaited hne]
  | some awaited => rw [hearNodes_of_awaited hawaited]

lemma taken_hearController_le (monitor : Monitor) (bytes : Bytes) :
    (monitor.hearController bytes).taken ≤ bytes.length := by
  by_cases hne : bytes = []
  · rw [hne, hearController_nil]
    exact Nat.le_refl 0
  cases hawaited : monitor.awaited? with
  | none =>
      rw [hearController_of_quiet hawaited]
      exact Receiver.taken_seek_le sent? monitor.commands bytes
  | some awaited =>
      rw [hearController_of_awaited hawaited hne]
      exact Nat.zero_le _

/-- **A call passes over a beginning of the timeline and tells what is in it**, except for a
silence, which is not in it.  The receiver then has the rest of the timeline before it. -/
lemma timeline_hearController (monitor : Monitor) (past : Nat) (chunk more : Bytes) :
    let heard := monitor.hearController chunk
    ∃ passed, monitor.commands.timeline past (chunk ++ more) = passed ++
        heard.monitor.commands.timeline (past + heard.taken) (chunk.drop heard.taken ++ more) ∧
      Receiver.picked Sent.report? (heard.event?.map (past + heard.taken, ·)).toList
        = passed.filter fun entry => entry.2.isReply = false := by
  intro heard
  by_cases hne : chunk = []
  · subst hne
    exact ⟨[], rfl, rfl⟩
  cases hawaited : monitor.awaited? with
  | some awaited =>
      have hheard : heard = _ := hearController_of_awaited hawaited hne
      rw [hheard]
      exact ⟨[], rfl, rfl⟩
  | none =>
      obtain ⟨passed, htimeline, hpassed⟩ :=
        Receiver.timeline_seek_append sent? monitor.commands past chunk more
      have hheard : heard = _ := hearController_of_quiet hawaited chunk
      refine ⟨passed, ?_, ?_⟩
      · rw [hheard]
        dsimp only
        rw [commands_behind]
        exact htimeline
      · rw [← Receiver.picked_picked report?_sent?, hpassed, hheard]

/-! ## Calls that take nothing -/

/-- The listener has taken the bytes `past` of the controller, and while an answer is due its
receiver is between frames. -/
structure Settled (mode : CheckMode) (past : Bytes) (monitor : Monitor) : Prop where
  follows : monitor.commands.Follows .commands mode past
  isIdle : monitor.awaited?.isSome = true → monitor.commands.isIdle = true

namespace Settled

lemma start : (new mode).Settled mode [] := ⟨Receiver.follows_start, nofun⟩

/-- An answer becomes due with a frame, and behind a frame the receiver is between frames. -/
lemma hearController (h : monitor.Settled mode past) (bytes : Bytes) :
    (monitor.hearController bytes).monitor.Settled mode
      (past ++ bytes.take (monitor.hearController bytes).taken) := by
  by_cases hne : bytes = []
  · rw [hne, hearController_nil]
    simpa using h
  cases hawaited : monitor.awaited? with
  | some awaited =>
      rw [hearController_of_awaited hawaited hne]
      exact ⟨by simpa using h.follows, nofun⟩
  | none =>
      rw [hearController_of_quiet hawaited]
      dsimp only
      refine ⟨by simpa using (h.follows.seek sent? bytes).1, fun hdue => ?_⟩
      obtain ⟨request, hfound⟩ := exists_request_of_behind (by exact hawaited) hdue
      rw [commands_behind]
      exact h.follows.isIdle_of_found (by simp [sent?]) hfound

/-- The stations may end the waiting, and never begin it. -/
lemma hearNodes (h : monitor.Settled mode past) (bytes : Bytes) :
    (monitor.hearNodes bytes).monitor.Settled mode past := by
  by_cases hne : bytes = []
  · rwa [hne, hearNodes_nil]
  cases hawaited : monitor.awaited? with
  | none => rwa [hearNodes_of_quiet hawaited hne]
  | some awaited =>
      rw [hearNodes_of_awaited hawaited]
      exact ⟨h.follows, fun _ => h.isIdle (by simp [hawaited])⟩

end Settled

/-- The listener waits for no answer and is not within a frame. -/
def IsQuiet (monitor : Monitor) : Prop :=
  monitor.awaited? = none ∧ monitor.commands.isIdle = true

namespace IsQuiet

lemma hearNodes (h : monitor.IsQuiet) (bytes : Bytes) :
    (monitor.hearNodes bytes).monitor = monitor := by
  by_cases hne : bytes = []
  · rw [hne, hearNodes_nil]
  · rw [hearNodes_of_quiet h.1 hne]

lemma hearEach_nodes (h : monitor.IsQuiet) (pieces : List Bytes) :
    (monitor.hearEach (pieces.map .nodes)).2 = monitor := by
  induction pieces with
  | nil => rfl
  | cons bytes rest ih =>
      rw [List.map_cons, hearEach, hear]
      dsimp only
      rw [h.hearNodes, ih]

/-- There is nothing that the listener could tell before it takes a byte. -/
lemma taken_pos (h : monitor.IsQuiet) (hne : bytes ≠ []) :
    0 < (monitor.hearController bytes).taken := by
  rw [hearController_of_quiet h.1]
  refine Nat.pos_of_ne_zero fun htaken => ?_
  obtain ⟨hwithin, -⟩ := Receiver.seek_of_taken_eq_zero sent? nofun hne htaken
  cases hwithin.symm.trans h.2

end IsQuiet

/-- **A call that takes nothing leaves the listener quiet.**  It told of a silence, and then the
receiver was between frames, or of a frame that it gave up. -/
lemma Settled.isQuiet_of_taken_eq_zero (h : monitor.Settled mode past) (hne : bytes ≠ [])
    (htaken : (monitor.hearController bytes).taken = 0) :
    (monitor.hearController bytes).monitor.IsQuiet := by
  cases hawaited : monitor.awaited? with
  | some awaited =>
      rw [hearController_of_awaited hawaited hne]
      exact ⟨rfl, h.isIdle (by simp [hawaited])⟩
  | none =>
      rw [hearController_of_quiet hawaited] at htaken ⊢
      obtain ⟨-, hidle, defect, hfound⟩ := Receiver.seek_of_taken_eq_zero sent? nofun hne htaken
      dsimp only
      rw [hfound]
      exact ⟨hawaited, hidle⟩

/-! ## The whole course -/

namespace Course

/-- What is taken is a beginning of the stream. -/
lemma past_isPrefix (h : Course monitor stream calls events past last) : past <+: stream := by
  induction h with
  | start => exact List.nil_prefix
  | controller chunk _ hnext _ _ =>
      exact ((List.prefix_append_right_inj _).mpr (List.take_prefix _ _)).trans hnext
  | nodes _ _ ih => exact ih

lemma settled (h : Course (.new mode) stream calls events past last) : last.Settled mode past := by
  induction h with
  | start => exact .start
  | controller chunk _ _ hheard ih => exact hheard ▸ ih.hearController chunk
  | nodes bytes _ ih => exact ih.hearNodes bytes

/-- **The events so far and what is to come make up the timeline**, but for silences and replies. -/
lemma timeline_eq (h : Course (.new mode) stream calls events past last) :
    ∀ rest, stream = past ++ rest →
      ∃ passed, (Receiver.start .commands mode).timeline 0 stream
          = passed ++ last.commands.timeline past.length rest ∧
        Receiver.picked Sent.report? events
          = passed.filter fun entry => entry.2.isReply = false := by
  induction h with
  | start => exact fun rest hrest => ⟨[], by rw [hrest]; rfl, rfl⟩
  | @controller calls events past mid heard chunk _ hnext hheard ih =>
      intro rest hrest
      obtain ⟨more, hmore⟩ := hnext
      obtain ⟨passed, htimeline, hevents⟩ := ih (chunk ++ more)
        (by rw [← hmore, List.append_assoc])
      obtain ⟨looked, hlooked, htold⟩ := mid.timeline_hearController past.length chunk more
      have hle := taken_hearController_le mid chunk
      rw [hheard] at hlooked htold hle
      have hleft : rest = chunk.drop heard.taken ++ more :=
        Receiver.eq_drop_append (hmore.trans hrest)
      refine ⟨passed ++ looked, ?_, ?_⟩
      · rw [htimeline, hlooked, hleft, List.length_append, List.length_take_of_le hle,
          List.append_assoc]
      · rw [Receiver.picked_append, List.filter_append, hevents, htold]
  | nodes bytes _ ih =>
      rw [commands_hearNodes]
      exact ih

/-- Each byte takes two calls at most, and only a quiet listener has made one more. -/
lemma calls_le (h : Course (.new mode) stream calls events past last) :
    calls ≤ 2 * past.length + 1 ∧ (calls = 2 * past.length + 1 → last.IsQuiet) := by
  induction h with
  | start => exact ⟨Nat.zero_le _, nofun⟩
  | @controller calls events past mid heard chunk h _ hheard ih =>
      subst hheard
      obtain ⟨hle, hquiet⟩ := ih
      by_cases hne : chunk = []
      · subst hne
        simpa [hearController_nil] using ⟨hle, hquiet⟩
      rw [if_neg hne, List.length_append,
        List.length_take_of_le (taken_hearController_le mid chunk)]
      by_cases htaken : (mid.hearController chunk).taken = 0
      · -- at the bound the listener was quiet, and a quiet one takes something
        have hnot : calls ≠ 2 * past.length + 1 := fun heq =>
          (hquiet heq).taken_pos hne |>.ne' htaken
        exact ⟨by omega, fun _ => h.settled.isQuiet_of_taken_eq_zero hne htaken⟩
      · exact ⟨by omega, fun heq => by omega⟩
  | nodes bytes _ ih =>
      refine ⟨ih.1, fun heq => ?_⟩
      rw [(ih.2 heq).hearNodes]
      exact ih.2 heq

/-- What is not taken can be presented again until nothing is left. -/
lemma hearAllController (h : Course monitor stream calls events past last) {rest : Bytes}
    (hrest : stream = past ++ rest) :
    ∃ later, Course monitor stream (calls + (last.hearAllController rest).1.length)
      (events ++ later) stream (last.hearAllController rest).2 := by
  fun_induction Monitor.hearAllController last rest generalizing calls events past with
  | case1 last =>
      rw [List.append_nil] at hrest
      subst hrest
      exact ⟨[], by rwa [List.append_nil]⟩
  | case2 last b rest heard more final hall =>
      rename_i ih
      have hnext := h.controller (b :: rest) (hrest ▸ List.prefix_refl _) rfl
      rw [if_neg (List.cons_ne_nil b rest)] at hnext
      obtain ⟨later, hlater⟩ := ih hnext (by
        rw [hrest, List.append_assoc, List.take_append_drop])
      rw [hall, List.append_assoc, Nat.add_assoc, Nat.add_comm 1] at hlater
      exact ⟨_, hlater⟩

/-- **What is told of the controller does not depend on the stations.**  The events so far, as the
reports that they stand for and each with the number of bytes taken, begin the list of the reports
other than replies of a fresh receiver, and at the end of the controller's bytes they are all of
that list.  While an answer is due the receiver for the controller is between frames.  A call that
takes nothing is followed by one that takes something, whatever the stations send in between, so
that the calls are at most two for each byte taken, and one more.  Presenting again what was not
taken comes to the end of the stream. -/
theorem sent_eq_commands (h : Course (.new mode) stream calls events past last) :
    let commands := ((Receiver.start .commands mode).timeline 0 stream).filter fun entry =>
      entry.2.isReply = false
    let told := Receiver.picked Sent.report? events
    told <+: commands ∧ (past = stream → told = commands) ∧
      (last.awaitedStation?.isSome = true → last.commands.isIdle = true) ∧
      (∀ bytes, bytes ≠ [] → (last.hearController bytes).taken = 0 → ∀ between : List Bytes,
        let later := ((last.hearController bytes).monitor.hearEach (between.map .nodes)).2
        0 < (later.hearController bytes).taken) ∧
      calls ≤ 2 * past.length + 1 ∧
      ∀ rest, stream = past ++ rest → ∃ later,
        Course (.new mode) stream (calls + (last.hearAllController rest).1.length)
          (events ++ later) stream (last.hearAllController rest).2 := by
  intro commands told
  obtain ⟨rest, hrest⟩ := h.past_isPrefix
  obtain ⟨passed, htimeline, hevents⟩ := h.timeline_eq rest hrest.symm
  obtain ⟨hbegins, hall⟩ := Receiver.filter_behind htimeline fun entry => entry.2.isReply = false
  rw [← hevents] at hbegins hall
  refine ⟨hbegins, fun hend => hall ?_, ?_, ?_, h.calls_le.1, fun rest => h.hearAllController⟩
  · exact List.append_right_eq_self.mp (hrest.trans hend.symm)
  · intro hexpected
    exact h.settled.isIdle (by rwa [awaitedStation?, Option.isSome_map] at hexpected)
  · intro bytes hne htaken between
    have hquiet := h.settled.isQuiet_of_taken_eq_zero hne htaken
    rw [hquiet.hearEach_nodes between]
    exact hquiet.taken_pos hne

/-- A read request is cut short in front of the STX of another, and this STX is left with the broken
frame.  The answer to the second request has only begun when the controller goes on, so the next
byte of the controller is left as well, with the silence.  The stations send something before every
call but the first. -/
theorem sent_eq_commands_around_silence :
    let stream : Bytes := [0x02, 0x31, 0x32, 0x02, 0x31, 0x32, 0x30, 0x30, 0x35, 0x03, 0x35, 0x06]
    let station : Station := ⟨12, by decide⟩
    let events := [(3, Sent.defect ⟨.framing, some station⟩),
      (11, .request (.read station ⟨5, by decide⟩)), (11, .silence station)]
    ∃ last, Course (.new .plain) stream 5 events stream last ∧
      Receiver.picked Sent.report? events
        = ((Receiver.start .commands .plain).timeline 0 stream).filter fun entry =>
          entry.2.isReply = false := by
  intro stream station events
  let request : Bytes := [0x02, 0x31, 0x32, 0x30, 0x30, 0x35, 0x03, 0x35]
  let cut := ((new .plain).hearController [0x02, 0x31, 0x32]).monitor
  let broken := ((cut.hearNodes [0x06]).monitor.hearController request).monitor
  let asked := ((broken.hearNodes [0x06]).monitor.hearController request).monitor
  let silent := ((asked.hearNodes [0x02, 0x2D]).monitor.hearController [0x06]).monitor
  let final := ((silent.hearNodes [0x06]).monitor.hearController [0x06]).monitor
  have hcut : (new .plain).hearController [0x02, 0x31, 0x32] = ⟨none, 3, cut⟩ := by decide +kernel
  have hbroken : (cut.hearNodes [0x06]).monitor.hearController request
      = ⟨some (.defect ⟨.framing, some station⟩), 0, broken⟩ := by decide +kernel
  have hasked : (broken.hearNodes [0x06]).monitor.hearController request
      = ⟨some (.request (.read station ⟨5, by decide⟩)), 8, asked⟩ := by decide +kernel
  have hsilent : (asked.hearNodes [0x02, 0x2D]).monitor.hearController [0x06]
      = ⟨some (.silence station), 0, silent⟩ := by decide +kernel
  have hfinal : (silent.hearNodes [0x06]).monitor.hearController [0x06] = ⟨none, 1, final⟩ := by
    decide +kernel
  have hfirst : Course (.new .plain) stream 1 [] (stream.take 3) cut :=
    .controller _ .start ⟨stream.drop 3, rfl⟩ hcut
  have hdefect : Course (.new .plain) stream 2 (events.take 1) (stream.take 3) broken :=
    (hfirst.nodes [0x06]).controller request ⟨stream.drop 11, rfl⟩ hbroken
  have hrequest : Course (.new .plain) stream 3 (events.take 2) (stream.take 11) asked :=
    (hdefect.nodes [0x06]).controller request ⟨stream.drop 11, rfl⟩ hasked
  have hsilence : Course (.new .plain) stream 4 events (stream.take 11) silent :=
    (hrequest.nodes [0x02, 0x2D]).controller [0x06] ⟨[], rfl⟩ hsilent
  have hcourse : Course (.new .plain) stream 5 events stream final :=
    (hsilence.nodes [0x06]).controller [0x06] ⟨[], rfl⟩ hfinal
  exact ⟨final, hcourse, (sent_eq_commands hcourse).2.1 rfl⟩

end Course

end Monitor

end FieldBus
