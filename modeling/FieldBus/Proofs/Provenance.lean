import FieldBus.Controller
import FieldBus.Node
import FieldBus.Proofs.Held
import FieldBus.Proofs.Reports

/-!
# Where calls and completions come from

What a station is called to, and the value that ends a read, stood on the line: as a word of that
frame, in one piece, whatever was around it, however the bytes were cut into chunks, and whatever
the station answered in between.

* `Node.Run` — a station at work on a stream of bytes.  **`Node.Run.word_of_call`** is its half.
* `Controller.feedEach` — a controller fed chunk after chunk.  **`Controller.word_of_value`** is the
  other half.

Both rest on `Receiver.Follows`, which goes along the stream with the receiver.
-/

namespace FieldBus

namespace Receiver.Follows

variable {receiver : Receiver} {traffic : Traffic} {mode : CheckMode} {past : Bytes}

/-- Looking for a report keeps the tie, and a frame that is found has a word that the bytes taken
end with. -/
lemma seek {α : Type} (want : Report → Option α) (h : receiver.Follows traffic mode past)
    (bytes : Bytes) :
    (receiver.seek want bytes).receiver.Follows traffic mode
        (past ++ bytes.take (receiver.seek want bytes).taken) ∧
      ∀ a, (receiver.seek want bytes).found? = some a →
        ∃ report, want report = some a ∧ ∀ frame, report = .frame frame →
          ∃ word, word <:+ past ++ bytes.take (receiver.seek want bytes).taken ∧
            frame.WireWord traffic mode word := by
  fun_induction Receiver.seek want receiver bytes generalizing past with
  | case1 receiver =>
      refine ⟨by simpa using h, ?_⟩
      rintro a ⟨⟩
  | case2 receiver b rest fed =>
      refine ⟨(h.feed (b :: rest)).1, ?_⟩
      rintro a ⟨⟩
  | case3 receiver b rest fed report hreport a =>
      rename_i hwant
      have hfeed := h.feed (b :: rest)
      refine ⟨hfeed.1, ?_⟩
      rintro found ⟨⟩
      refine ⟨report, hwant, ?_⟩
      rintro frame rfl
      exact hfeed.2 frame hreport
  | case4 receiver b rest fed report hreport hwant sought =>
      rename_i ih
      have hsought := ih (h.feed (b :: rest)).1
      rw [List.append_assoc, ← List.take_add] at hsought
      exact hsought

/-- Behind a frame that was looked for the receiver is between frames. -/
lemma isIdle_of_found {α : Type} {want : Report → Option α} {bytes : Bytes} {a : α}
    (h : receiver.Follows traffic mode past) (hwant : ∀ defect, want (.defect defect) ≠ some a)
    (hfound : (receiver.seek want bytes).found? = some a) :
    (receiver.seek want bytes).receiver.isIdle = true := by
  fun_induction Receiver.seek want receiver bytes generalizing past with
  | case1 => cases hfound
  | case2 => cases hfound
  | case3 receiver b rest fed report hreport found =>
      rename_i ha
      obtain rfl := Option.some.inj hfound
      cases report with
      | frame frame => exact h.isIdle_of_frame hreport
      | defect defect => exact absurd ha (hwant defect)
  | case4 receiver b rest fed report hreport hnone sought =>
      rename_i ih
      exact ih (h.feed (b :: rest)).1 hfound

end Receiver.Follows

/-! ## Stations -/

/-- A call that is not about a broken frame comes from the request itself. -/
lemma Report.eq_request_of_call? {request : Request} {report : Report}
    (h : report.call? request.station = some request.call) :
    report = .frame (.request request) := by
  cases report with
  | defect defect =>
      rw [Report.call?] at h
      split_ifs at h
      cases request <;> cases h
  | frame frame =>
      cases frame with
      | reply reply => cases h
      | request other =>
          rw [Report.call?] at h
          split_ifs at h with hstation
          cases other <;> cases request <;> cases h <;> cases hstation <;> rfl

namespace Node

variable {node mid last next : Node} {bytes rest past : Bytes} {calls : List Call}
  {mode : CheckMode}

/-- The answers of the owner, whether they are due or not. -/
inductive Answers (node : Node) : Node → Prop
  | giveValue (value : Value) : Answers node (node.giveValue value).2
  | giveInt (n : Int) : Answers node (node.giveInt n).2
  | acknowledge : Answers node node.acknowledge.2
  | refuse (why : Refusal) : Answers node (node.refuse why).2

lemma giveValue_eq (node : Node) (value : Value) :
    ∃ due, (node.giveValue value).2 = { node with due := due } := by
  rw [Node.giveValue]
  split
  · exact ⟨.nothing, rfl⟩
  · exact ⟨node.due, rfl⟩

/-- An answer changes nothing but what is due. -/
lemma Answers.eq_of_due (h : node.Answers next) : ∃ due, next = { node with due := due } := by
  cases h with
  | giveValue value => exact giveValue_eq node value
  | giveInt n =>
      rw [Node.giveInt]
      split
      · split
        · exact giveValue_eq node _
        · exact ⟨node.due, rfl⟩
      · exact ⟨node.due, rfl⟩
  | acknowledge =>
      rw [Node.acknowledge]
      split
      · exact ⟨.nothing, rfl⟩
      · exact ⟨.nothing, rfl⟩
      · exact ⟨node.due, rfl⟩
  | refuse why =>
      rw [Node.refuse]
      split
      · exact ⟨node.due, rfl⟩
      · exact ⟨.nothing, rfl⟩

/-- A node that is fed looks for what names its station. -/
lemma seek_of_feed_eq_ok {chunk : Bytes} {heard : Heard} (h : node.feed chunk = (.ok heard, next)) :
    ∃ sought, node.receiver.seek (Report.call? node.station) chunk = sought ∧
      heard = ⟨sought.found?, sought.taken⟩ ∧ next.receiver = sought.receiver ∧
      next.station = node.station := by
  rw [Node.feed] at h
  split_ifs at h
  · cases h
  · obtain ⟨hheard, rfl⟩ := Prod.mk.inj h
    exact ⟨_, rfl, (Except.ok.inj hheard).symm, rfl, rfl⟩

/-- A node that owes no answer takes bytes, and all of them if they bring no call. -/
lemma feed_of_not_isCalled (hfree : node.isCalled = false) (chunk : Bytes) :
    ∃ heard next, node.feed chunk = (.ok heard, next) ∧
      (heard.call? = none → heard.taken = chunk.length) := by
  rw [Node.feed, if_neg (by simp [hfree])]
  exact ⟨_, _, rfl, Receiver.taken_seek_of_none _⟩

/-- A node at work on a stream of bytes: it is fed chunks of what is still to come, what a call did
not take is fed again, and its owner answers.  `calls` is what it has called for, `rest` what is
still to come. -/
inductive Run (node : Node) (bytes : Bytes) : List Call → Node → Bytes → Prop
  | start : Run node bytes [] node bytes
  | feed {calls : List Call} {mid next : Node} {chunk rest : Bytes} {heard : Heard}
      (h : Run node bytes calls mid (chunk ++ rest)) (hfeed : mid.feed chunk = (.ok heard, next)) :
      Run node bytes (calls ++ heard.call?.toList) next (chunk.drop heard.taken ++ rest)
  | answer {calls : List Call} {mid next : Node} {rest : Bytes}
      (h : Run node bytes calls mid rest) (hanswers : mid.Answers next) :
      Run node bytes calls next rest

/-- What one feeding does to a node that follows a stream. -/
lemma follows_feed {chunk : Bytes} {heard : Heard}
    (h : node.receiver.Follows .commands mode past) (hfeed : node.feed chunk = (.ok heard, next)) :
    next.station = node.station ∧
      next.receiver.Follows .commands mode (past ++ chunk.take heard.taken) ∧
      ∀ request, request.station = node.station → heard.call? = some request.call →
        ∃ word, word <:+ past ++ chunk.take heard.taken ∧
          (Frame.request request).WireWord .commands mode word := by
  obtain ⟨sought, rfl, rfl, hreceiver, hsame⟩ := seek_of_feed_eq_ok hfeed
  obtain ⟨hfollows, hfound⟩ := h.seek (Report.call? node.station) chunk
  rw [← hreceiver] at hfollows
  refine ⟨hsame, hfollows, ?_⟩
  intro request hstation hcall
  obtain ⟨report, hwant, hword⟩ := hfound _ hcall
  rw [← hstation] at hwant
  exact hword _ (Report.eq_request_of_call? hwant)

/-- What a run keeps: what is behind the node and what is still to come are the stream, and every
request in the calls has its word behind the node. -/
lemma Run.follows (hstart : node.receiver = .start .commands mode)
    (h : Run node bytes calls last rest) :
    ∃ past, bytes = past ++ rest ∧ last.station = node.station ∧
      last.receiver.Follows .commands mode past ∧
      ∀ request : Request, request.station = node.station → request.call ∈ calls →
        ∃ word, word <:+: past ∧ (Frame.request request).WireWord .commands mode word := by
  induction h with
  | start =>
      refine ⟨[], rfl, rfl, ?_, ?_⟩
      · rw [hstart]
        exact Receiver.follows_start
      · intro request _ hmem
        cases hmem
  | @feed calls mid next chunk rest heard _ hfeed ih =>
      obtain ⟨past, hbytes, hstation, hfollows, hcalls⟩ := ih
      obtain ⟨hnext, hfollows', hcall⟩ := follows_feed hfollows hfeed
      refine ⟨past ++ chunk.take heard.taken, ?_, hnext.trans hstation, hfollows', ?_⟩
      · rw [hbytes, List.append_assoc, ← List.append_assoc (chunk.take heard.taken),
          List.take_append_drop]
      · intro request hrequest hmem
        rcases List.mem_append.mp hmem with hmem | hmem
        · obtain ⟨word, hword, hstands⟩ := hcalls request hrequest hmem
          exact ⟨word, hword.trans (List.prefix_append _ _).isInfix, hstands⟩
        · obtain ⟨word, hword, hstands⟩ := hcall request (hrequest.trans hstation.symm)
            (by simpa using hmem)
          exact ⟨word, hword.isInfix, hstands⟩
  | answer _ hanswers ih =>
      obtain ⟨past, hbytes, hstation, hfollows, hcalls⟩ := ih
      obtain ⟨due, rfl⟩ := hanswers.eq_of_due
      exact ⟨past, hbytes, hstation, hfollows, hcalls⟩

/-- **A station is called only to what stood on the line.** -/
theorem Run.word_of_call {request : Request} (hstart : node.receiver = .start .commands mode)
    (h : Run node bytes calls last rest) (hstation : request.station = node.station)
    (hmem : request.call ∈ calls) :
    ∃ word, word <:+: bytes ∧ (Frame.request request).WireWord .commands mode word := by
  obtain ⟨past, rfl, _, _, hcalls⟩ := h.follows hstart
  obtain ⟨word, hword, hstands⟩ := hcalls request hstation hmem
  exact ⟨word, hword.trans (List.prefix_append _ _).isInfix, hstands⟩

/-- A node that was called can be freed: every request can be refused. -/
lemma exists_free (node : Node) :
    ∃ free, (node = free ∨ node.Answers free) ∧ free.isCalled = false ∧
      free.receiver = node.receiver := by
  by_cases hcalled : node.isCalled = true
  · refine ⟨_, .inr (.refuse .commandFailed), ?_, receiver_refuse node _⟩
    cases hdue : node.due with
    | answer kind => simp [Node.refuse, hdue, Node.answer, isCalled]
    | _ => simp [isCalled, hdue] at hcalled
  · exact ⟨node, .inl rfl, by simpa using hcalled, rfl⟩

/-- A station gets to the end of every stream: what it is called to can be refused. -/
theorem Run.exists_nil (h : Run node bytes calls mid rest) :
    ∃ more last, Run node bytes (calls ++ more) last [] := by
  induction hwork : mid.receiver.work rest using Nat.strong_induction_on
    generalizing calls mid rest with
  | _ work ih =>
      by_cases hrest : rest = []
      · subst hrest
        exact ⟨[], mid, by simpa using h⟩
      obtain ⟨free, hanswers, hfree, hreceiver⟩ := mid.exists_free
      have hrun : Run node bytes calls free (rest ++ []) := by
        rw [List.append_nil]
        rcases hanswers with rfl | hanswers
        · exact h
        · exact h.answer hanswers
      obtain ⟨heard, next, hfeed, -⟩ := feed_of_not_isCalled hfree rest
      have hless := work_feed_lt hrest hfeed
      rw [hreceiver, hwork] at hless
      have hnext := hrun.feed hfeed
      rw [List.append_nil] at hnext
      obtain ⟨more, last, hlast⟩ := ih _ hless hnext rfl
      rw [List.append_assoc] at hlast
      exact ⟨_, last, hlast⟩

end Node

/-! ## Controllers -/

/-- A read ends with a value only through the reply that carries it. -/
lemma Kind.eq_reply_of_ending {kind : Kind} {report : Report} {value : Value}
    (h : kind.ending (kind.judge report) = .done (.value value)) :
    report = .frame (.reply (.value value)) := by
  cases report with
  | defect defect => cases h
  | frame frame =>
      cases frame with
      | request request => cases h
      | reply reply =>
          rw [Kind.judge] at h
          split_ifs at h
          · cases reply with
            | value v => cases h; rfl
            | ack => cases kind <;> cases h
            | refused why => cases h
          · cases h

namespace Controller

variable {controller : Controller} {past : Bytes} {mode : CheckMode}

/-- Feeds chunk after chunk, and gives what came of each. -/
def feedEach (controller : Controller) :
    List Bytes → List (Except Fault (Option Ending)) × Controller
  | [] => ([], controller)
  | chunk :: rest =>
    let fed := controller.feed chunk
    let later := fed.2.feedEach rest
    (fed.1 :: later.1, later.2)

/-- Once the exchange is over, chunks are refused. -/
lemma feedEach_of_none (hexchange : controller.exchange? = none) (chunks : List Bytes) :
    ∀ result ∈ (controller.feedEach chunks).1, result = .error .sequence := by
  induction chunks with
  | nil =>
      intro result hmem
      cases hmem
  | cons chunk rest ih =>
      have hfeed : controller.feed chunk = (.error .sequence, controller) := by
        rw [Controller.feed, hexchange]
      intro result hmem
      rw [feedEach, hfeed] at hmem
      rcases List.mem_cons.mp hmem with rfl | hmem
      · rfl
      · exact ih result hmem

/-- What one chunk does to a controller that follows the replies. -/
lemma feed_follows {exchange : Exchange} (hexchange : controller.exchange? = some exchange)
    (hfollows : exchange.replies.Follows .replies mode past) (chunk : Bytes) :
    (∃ next : Exchange,
      controller.feed chunk = (.ok none, { controller with exchange? := some next }) ∧
      next.replies.Follows .replies mode (past ++ chunk)) ∨
    ∃ ending, (controller.feed chunk).1 = .ok (some ending) ∧
      (controller.feed chunk).2.exchange? = none ∧
      ∀ value, ending = .done (.value value) →
        ∃ word, word <:+: past ++ chunk ∧
          (Frame.reply (.value value)).WireWord .replies mode word := by
  obtain ⟨hnext, hword⟩ := hfollows.feed chunk
  cases hreport : (exchange.replies.feed chunk).report? with
  | none =>
      rw [Receiver.taken_feed_of_none hreport, List.take_length] at hnext
      refine .inl ⟨⟨exchange.kind, _⟩, ?_, hnext⟩
      simp [Controller.feed, hexchange, Exchange.feed, hreport]
  | some report =>
      refine .inr ⟨exchange.kind.ending (exchange.kind.judge report), ?_, ?_, ?_⟩
      · simp [Controller.feed, hexchange, Exchange.feed, hreport]
      · simp [Controller.feed, hexchange, Exchange.feed, hreport]
      · intro value hvalue
        rw [Kind.eq_reply_of_ending hvalue] at hreport
        obtain ⟨word, hsuffix, hstands⟩ := hword _ hreport
        refine ⟨word, hsuffix.isInfix.trans ?_, hstands⟩
        exact (List.prefix_append_right_inj past).mpr (List.take_prefix _ _) |>.isInfix

/-- **A read ends with a value only if the word of that value came in.** -/
theorem word_of_value {exchange : Exchange} {chunks : List Bytes} {value : Value}
    (hexchange : controller.exchange? = some exchange)
    (hfollows : exchange.replies.Follows .replies mode past)
    (hmem : .ok (some (.done (.value value))) ∈ (controller.feedEach chunks).1) :
    ∃ word, word <:+: past ++ chunks.flatten ∧
      (Frame.reply (.value value)).WireWord .replies mode word := by
  induction chunks generalizing controller exchange past with
  | nil => cases hmem
  | cons chunk rest ih =>
      rw [feedEach] at hmem
      rw [List.flatten_cons, ← List.append_assoc]
      rcases feed_follows hexchange hfollows chunk with
        ⟨next, hfeed, hnext⟩ | ⟨ending, hending, hover, hword⟩
      · rw [hfeed] at hmem
        rcases List.mem_cons.mp hmem with hmem | hmem
        · cases hmem
        · exact ih rfl hnext hmem
      · rcases List.mem_cons.mp hmem with hmem | hmem
        · rw [hending] at hmem
          cases hmem
          obtain ⟨word, hinfix, hstands⟩ := hword value rfl
          exact ⟨word, hinfix.trans (List.prefix_append _ _).isInfix, hstands⟩
        · cases feedEach_of_none hover rest _ hmem

end Controller

end FieldBus
