import FieldBus.Proofs.Provenance

/-!
# A station hears what is meant for it

A node looks through a stream for what names its station and passes over everything else: the
requests for other stations, their replies, and what was broken in between.  Some of that takes no
byte at all, and a call may come anywhere in a chunk, with the rest of the chunk still to be looked
at.  Nothing of this shows in what the owner is told.  The calls are exactly the reports that name
the station among those of a receiver which hears the same stream alone, each when as many bytes
were taken (**`Node.Course.calls_eq_meant`**).

* `Report.station?`, `Call.report` — which station a report names, and which report a call stands
  for.
* `Node.Course` — a node at work on a stream, with the calls so far and when they came.
* `Node.Course.timeline_eq` — the invariant: the calls so far are what names the station in the
  part of the timeline that the node is past, and its receiver will come to the rest of it.
-/

namespace FieldBus

/-- The station that a report names, if it names one. -/
def Report.station? : Report → Option Station
  | frame f => f.station?
  | defect d => d.station?

/-- The report that a call to this station stands for. -/
def Call.report (station : Station) : Call → Report
  | read parameter => .frame (.request (.read station parameter))
  | write parameter value => .frame (.request (.write station parameter value))
  | select => .frame (.request (.select station))
  | malformed fault => .defect ⟨fault, some station⟩

/-- A station is called to the reports that name it, and the call tells which report it was. -/
lemma Report.report_call? (station : Station) (report : Report) :
    (report.call? station).bind (fun call => some (call.report station))
      = if report.station? = some station then some report else none := by
  cases report with
  | defect defect =>
      by_cases hnamed : defect.station? = some station
      · obtain ⟨fault, named⟩ := defect
        obtain rfl := hnamed
        simp [Report.call?, Report.station?, Call.report]
      · simp [Report.call?, Report.station?, hnamed]
  | frame frame =>
      cases frame with
      | reply reply => rfl
      | request request =>
          by_cases hnamed : request.station = station
          · subst hnamed
            cases request <;>
              simp [Report.call?, Report.station?, Frame.station?, Request.station, Request.call,
                Call.report]
          · simp [Report.call?, Report.station?, Frame.station?, hnamed]

namespace Node

variable {station : Station} {mode : CheckMode} {stream past : Bytes} {calls : List (Nat × Call)}
  {node last next : Node}

/-- A node at work on a stream.  Each time it is fed some of what comes next; what it leaves is
again what comes next.  In between its owner answers, and must have answered a request before the
node is fed again.  `calls` are the calls so far, each with the number of bytes taken by then, and
`past` are the bytes taken. -/
inductive Course (node : Node) (stream : Bytes) : List (Nat × Call) → Bytes → Node → Prop
  | start : Course node stream [] [] node
  | feed {calls : List (Nat × Call)} {past : Bytes} {mid next : Node} {heard : Heard}
      (chunk : Bytes) (hnext : past ++ chunk <+: stream) (h : Course node stream calls past mid)
      (hfeed : mid.feed chunk = (.ok heard, next)) :
      Course node stream (calls ++ (heard.call?.map (past.length + heard.taken, ·)).toList)
        (past ++ chunk.take heard.taken) next
  | answer {calls : List (Nat × Call)} {past : Bytes} {mid next : Node}
      (h : Course node stream calls past mid) (hanswers : mid.Answers next) :
      Course node stream calls past next

namespace Course

/-- What is taken is a beginning of the stream. -/
lemma past_isPrefix (h : Course node stream calls past last) : past <+: stream := by
  induction h with
  | start => exact List.nil_prefix
  | feed chunk hnext _ _ _ =>
      exact ((List.prefix_append_right_inj _).mpr (List.take_prefix _ _)).trans hnext
  | answer _ _ ih => exact ih

/-- **The calls so far and what is to come make up the timeline.** -/
lemma timeline_eq (h : Course (.new station mode) stream calls past last) :
    last.station = station ∧ ∀ rest, stream = past ++ rest →
      ∃ passed, (Receiver.start .commands mode).timeline 0 stream
          = passed ++ last.receiver.timeline past.length rest ∧
        Receiver.picked (Report.call? station) passed = calls := by
  induction h with
  | start => exact ⟨rfl, fun rest hrest => ⟨[], by rw [hrest]; rfl, rfl⟩⟩
  | @feed calls past mid next heard chunk hnext _ hfeed ih =>
      obtain ⟨hstation, hbefore⟩ := ih
      obtain ⟨sought, hseek, rfl, hreceiver, hsame⟩ := seek_of_feed_eq_ok hfeed
      refine ⟨hsame.trans hstation, ?_⟩
      intro rest hrest
      obtain ⟨more, hmore⟩ := hnext
      obtain ⟨passed, htimeline, hcalls⟩ := hbefore (chunk ++ more)
        (by rw [← hmore, List.append_assoc])
      obtain ⟨looked, hlooked, hfound⟩ := Receiver.timeline_seek_append (Report.call? mid.station)
        mid.receiver past.length chunk more
      have hle := Receiver.taken_seek_le (Report.call? mid.station) mid.receiver chunk
      rw [hseek] at hlooked hfound hle
      have hleft : rest = chunk.drop sought.taken ++ more :=
        Receiver.eq_drop_append (hmore.trans hrest)
      refine ⟨passed ++ looked, ?_, ?_⟩
      · rw [htimeline, hlooked, hleft, hreceiver, List.length_append, List.length_take_of_le hle,
          List.append_assoc]
      · rw [hstation] at hfound
        rw [Receiver.picked_append, hcalls, hfound]
  | answer _ hanswers ih =>
      obtain ⟨due, rfl⟩ := hanswers.eq_of_due
      exact ih

/-- A node gets to the end of every stream: what it is called to can be refused. -/
lemma exists_end (h : Course node stream calls past last) :
    ∃ more final, Course node stream (calls ++ more) stream final := by
  obtain ⟨rest, hrest⟩ := h.past_isPrefix
  induction hwork : last.receiver.work rest using Nat.strong_induction_on
    generalizing calls past last rest with
  | _ work ih =>
      by_cases hend : rest = []
      · rw [hend, List.append_nil] at hrest
        rw [hrest] at h
        exact ⟨[], last, by rwa [List.append_nil]⟩
      obtain ⟨free, hanswers, hfree, hreceiver⟩ := last.exists_free
      have hcourse : Course node stream calls past free := by
        rcases hanswers with rfl | hanswers
        · exact h
        · exact h.answer hanswers
      obtain ⟨heard, next, hfeed, -⟩ := feed_of_not_isCalled hfree rest
      have hless := work_feed_lt hend hfeed
      rw [hreceiver, hwork] at hless
      have hnext := hcourse.feed rest (hrest ▸ List.prefix_refl _) hfeed
      obtain ⟨more, final, hfinal⟩ := ih _ hless hnext (rest.drop heard.taken)
        (by rw [List.append_assoc, List.take_append_drop, hrest]) rfl
      rw [List.append_assoc] at hfinal
      exact ⟨_, final, hfinal⟩

/-- **A node is called to what names its station, and to nothing else.**  The calls so far, as the
reports that they stand for and each with the number of bytes taken, begin the list of the reports
that name the station among those of a fresh receiver, and at the end of the stream they are all of
that list.  Whenever no answer is due the node can be fed, and a call to `feed` that tells of
nothing has taken all it was given; so the node gets to the end of the stream. -/
theorem calls_eq_meant (h : Course (.new station mode) stream calls past last) :
    let meant := ((Receiver.start .commands mode).timeline 0 stream).filter fun entry =>
      entry.2.station? = some station
    let told := calls.map fun entry => (entry.1, entry.2.report station)
    told <+: meant ∧ (past = stream → told = meant) ∧
      (last.isCalled = false → ∀ chunk, ∃ heard next, last.feed chunk = (.ok heard, next) ∧
        (heard.call? = none → heard.taken = chunk.length)) ∧
      ∃ more final, Course (.new station mode) stream (calls ++ more) stream final := by
  intro meant told
  obtain ⟨rest, hrest⟩ := h.past_isPrefix
  obtain ⟨passed, htimeline, hcalls⟩ := h.timeline_eq.2 rest hrest.symm
  have htold : told = passed.filter fun entry => entry.2.station? = some station := by
    rw [← Receiver.picked_picked (Report.report_call? station), hcalls]
    exact (Receiver.picked_some _ calls).symm
  obtain ⟨hbegins, hall⟩ := Receiver.filter_behind htimeline fun entry =>
    entry.2.station? = some station
  rw [← htold] at hbegins hall
  refine ⟨hbegins, fun hend => hall ?_, feed_of_not_isCalled, h.exists_end⟩
  exact List.append_right_eq_self.mp (hrest.trans hend.symm)

/-- A read request is cut short by another, and the first chunk ends with the STX that interrupts
it.  The node of that station is called to the broken frame before this STX is taken, refuses it,
and is then called to the request. -/
theorem calls_eq_meant_around_interruption :
    let stream : Bytes := [0x02, 0x31, 0x32, 0x02, 0x31, 0x32, 0x30, 0x30, 0x35, 0x03, 0x35]
    let calls := [(3, Call.malformed .framing), (11, Call.read ⟨5, by decide⟩)]
    ∃ last, Course (.new ⟨12, by decide⟩ .plain) stream calls stream last ∧
      (calls.map fun entry => (entry.1, entry.2.report ⟨12, by decide⟩))
        = ((Receiver.start .commands .plain).timeline 0 stream).filter fun entry =>
          entry.2.station? = some ⟨12, by decide⟩ := by
  intro stream calls
  let station : Station := ⟨12, by decide⟩
  have hbroken : (Node.new station .plain).feed [0x02, 0x31, 0x32, 0x02]
      = (.ok ⟨some (.malformed .framing), 3⟩,
        ⟨station, .plain, .start .commands .plain, .refusal⟩) := by decide +kernel
  have hread : (Node.new station .plain).feed [0x02, 0x31, 0x32, 0x30, 0x30, 0x35, 0x03, 0x35]
      = (.ok ⟨some (.read ⟨5, by decide⟩), 8⟩,
        ⟨station, .plain, .start .commands .plain, .answer .read⟩) := by decide +kernel
  have hrefused : Course (.new station .plain) stream [(3, .malformed .framing)] [0x02, 0x31, 0x32]
      (.new station .plain) :=
    .answer (.feed _ ⟨stream.drop 4, rfl⟩ .start hbroken) (.refuse .commandFailed)
  have hcourse := hrefused.feed _ (List.prefix_refl stream) hread
  exact ⟨_, hcourse, (calls_eq_meant hcourse).2.1 rfl⟩

end Course

end Node

end FieldBus
