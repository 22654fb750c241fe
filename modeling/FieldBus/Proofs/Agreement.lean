import FieldBus.Proofs.Outstanding
import FieldBus.Proofs.Overhearing
import FieldBus.Proofs.Provenance

/-!
# Who asks and who listens agree

A controller that sent a request, and a listener that heard it, both wait for the answer, and hear
the same bytes of it.  Whatever these bytes are, good or broken, the answer or something that does
not fit, and wherever they are cut, the two come to the same end of the exchange with the same chunk
(**`Monitor.agrees_on_replies`**).

They do so in different ways.  A controller has a receiver for each exchange, and judges a reply by
the kind of its request.  A listener has one receiver for all that the stations send, which an
answer may leave in the middle of a frame, and a table of its own of what answers what.  So the
argument has two halves, which meet in what a fresh receiver reports of the bytes: one says how the
exchange of a controller ends with that (`Controller.feed_of_hasTaken`), and the other what a
listener tells of it (`Monitor.Hears.feed`).  Then the two tables are compared
(`Monitor.tells_eq_told`).

Neither what the listener heard before nor what the controller did before matters.  Much of an
earlier answer may have been heard when that exchange was over; a new request starts without it on
both sides.

* `Kind.endingOf?` — how an exchange ends with these bytes of the answer.
* `Ending.told` — what a listener tells of such an end.
* `Receiver.HasTaken` — a receiver has taken some bytes of an answer, and nothing came of them so
  far.
* `Monitor.Agrees` — a listener and a controller have heard the same of the answer, and wait for
  more.  `Monitor.Agrees.feed` is what one chunk makes of it, and `Monitor.Agrees.feedEach` what
  many do.
-/

namespace FieldBus

/-- How an exchange of this kind ends with these bytes of the answer, unless they end first: by the
first thing that a fresh receiver reports of them. -/
def Kind.endingOf? (kind : Kind) (mode : CheckMode) (bytes : Bytes) : Option Ending :=
  ((Receiver.start .replies mode).feed bytes).report?.map kind.closing

/-- What a listener tells of an exchange with the station that ended so. -/
def Ending.told (station : Station) : Ending → Monitor.Answered
  | done (.value value) => .reply station (.value value)
  | done .written => .reply station .ack
  | done .selected => .reply station .ack
  | refused why => .reply station (.refused why)
  | broken fault => .broken station fault

/-- **The two tables are the same**: a listener tells of a report behind a request as of the end
that it makes of the exchange. -/
theorem Monitor.tells_eq_told (request : Request) (report : Report) :
    (Awaited.of request).tells report
      = (request.kind.closing report).told request.station := by
  rcases report with (other | reply) | defect
  · cases request <;> rfl
  · cases reply <;> cases request <;> rfl
  · cases request <;> rfl

/-! ## The bytes of an answer -/

/-- A receiver that has taken the bytes `past` of an answer, and nothing came of them so far. -/
def Receiver.HasTaken (mode : CheckMode) (past : Bytes) (receiver : Receiver) : Prop :=
  ∃ phase, (Receiver.start .replies mode).Passes past phase ∧
    receiver = (Receiver.start .replies mode).inPhase phase

namespace Receiver.HasTaken

variable {receiver : Receiver} {mode : CheckMode} {past : Bytes}

lemma start (mode : CheckMode) : (Receiver.start .replies mode).HasTaken mode [] :=
  ⟨.idle, .nil, rfl⟩

lemma report?_eq_none (h : receiver.HasTaken mode past) :
    ((Receiver.start .replies mode).feed past).report? = none := by
  obtain ⟨phase, hpasses, -⟩ := h
  rw [Receiver.Passes] at hpasses
  rw [hpasses]

/-- What is reported of some more bytes follows from all bytes of the answer. -/
lemma feed (h : receiver.HasTaken mode past) (chunk : Bytes) :
    (receiver.feed chunk).report?
        = ((Receiver.start .replies mode).feed (past ++ chunk)).report? ∧
      ((receiver.feed chunk).report? = none →
        (receiver.feed chunk).receiver.HasTaken mode (past ++ chunk)) := by
  obtain ⟨phase, hpasses, rfl⟩ := h
  refine ⟨by rw [hpasses.feed_append], fun hnone => ?_⟩
  refine ⟨_, hpasses.append (Receiver.passes_of_report_eq_none hnone), ?_⟩
  rw [Receiver.receiver_feed]
  rfl

end Receiver.HasTaken

/-- An exchange of this kind that has taken the bytes `past` of the answer, and nothing came of them
so far. -/
structure Exchange.HasTaken (kind : Kind) (mode : CheckMode) (past : Bytes) (exchange : Exchange) :
    Prop where
  kind_eq : exchange.kind = kind
  replies : exchange.replies.HasTaken mode past

lemma Exchange.hasTaken_start (kind : Kind) (mode : CheckMode) :
    (start kind mode).HasTaken kind mode [] :=
  ⟨rfl, .start mode⟩

/-- **One chunk for a controller.**  With the first report of all bytes of the answer the exchange
ends, and without one it goes on. -/
lemma Controller.feed_of_hasTaken {controller : Controller} {exchange : Exchange} {kind : Kind}
    {mode : CheckMode} {past : Bytes} (hexchange : controller.exchange? = some exchange)
    (htaken : exchange.HasTaken kind mode past) (chunk : Bytes) :
    (∃ report, ((Receiver.start .replies mode).feed (past ++ chunk)).report? = some report ∧
        controller.feed chunk = (.ok (some (kind.closing report)), { controller with
          exchange? := none
          outcome? := some (kind.closing report).outcome })) ∨
      ((Receiver.start .replies mode).feed (past ++ chunk)).report? = none ∧
        ∃ next : Exchange, next.HasTaken kind mode (past ++ chunk) ∧
          controller.feed chunk = (.ok none, { controller with exchange? := some next }) := by
  obtain ⟨rfl, hreplies⟩ := htaken
  obtain ⟨hreport, hon⟩ := hreplies.feed chunk
  rw [feed_of_exchange hexchange, ← hreport]
  cases hnone : (exchange.replies.feed chunk).report? with
  | some report => exact .inl ⟨report, rfl, rfl⟩
  | none =>
      refine .inr ⟨rfl, ⟨exchange.kind, (exchange.replies.feed chunk).receiver⟩, ?_, rfl⟩
      exact ⟨rfl, hon hnone⟩

/-! ## Both sides -/

namespace Monitor

variable {monitor : Monitor} {controller : Controller} {request : Request} {mode : CheckMode}
  {past bytes : Bytes} {operations : List Operation}

/-- A listener that waits for the answer to a request and has heard the bytes `past` of it. -/
structure Hears (request : Request) (mode : CheckMode) (past : Bytes) (monitor : Monitor) :
    Prop where
  awaited_eq : monitor.awaited? = some (.of request)
  replies : monitor.replies.HasTaken mode past

/-- **One chunk for a listener.**  It tells of the first report of all bytes of the answer, and then
expects nothing; without one it takes the chunk and waits on. -/
lemma Hears.feed (h : monitor.Hears request mode past) (chunk : Bytes) :
    (∃ report, ((Receiver.start .replies mode).feed (past ++ chunk)).report? = some report ∧
        (monitor.hearNodes chunk).event? = some ((Awaited.of request).tells report) ∧
        (monitor.hearNodes chunk).monitor.awaited? = none) ∨
      ((Receiver.start .replies mode).feed (past ++ chunk)).report? = none ∧
        (monitor.hearNodes chunk).event? = none ∧
        (monitor.hearNodes chunk).taken = chunk.length ∧
        (monitor.hearNodes chunk).monitor.Hears request mode (past ++ chunk) := by
  obtain ⟨hreport, hon⟩ := h.replies.feed chunk
  rw [hearNodes_of_awaited h.awaited_eq, ← hreport]
  cases hnone : (monitor.replies.feed chunk).report? with
  | some report => exact .inl ⟨report, rfl, rfl, rfl⟩
  | none => exact .inr ⟨rfl, rfl, Receiver.taken_feed_of_none hnone, rfl, hon hnone⟩

/-- A listener hears nothing of an earlier answer behind a request, wherever that has left it. -/
lemma hears_of_request
    (hheard : ((after mode operations).hearController bytes).event? = some (.request request)) :
    ((after mode operations).hearController bytes).monitor.Hears request mode [] := by
  have hreset : (after mode operations).replies.reset = .start .replies mode :=
    congrArg Monitor.replies (reset_after mode operations)
  generalize after mode operations = monitor at hheard hreset ⊢
  cases hawaited : monitor.awaited? with
  | some awaited =>
      by_cases hne : bytes = []
      · rw [hne] at hheard
        cases hheard
      · rw [hearController_of_awaited hawaited hne] at hheard
        cases hheard
  | none =>
      rw [hearController_of_quiet hawaited] at hheard ⊢
      dsimp only at hheard ⊢
      rw [hheard, behind, await, hreset]
      exact ⟨rfl, .start mode⟩

/-- A listener and a controller have heard the bytes `past` of the answer to a request, and wait for
more. -/
structure Agrees (request : Request) (mode : CheckMode) (past : Bytes) (monitor : Monitor)
    (controller : Controller) : Prop where
  hears : monitor.Hears request mode past
  exchange : ∃ exchange, controller.exchange? = some exchange ∧
    exchange.HasTaken request.kind mode past

/-- **One chunk.**  Both come to the same end with it, or both take all of it and wait on. -/
lemma Agrees.feed (h : Agrees request mode past monitor controller) (chunk : Bytes) :
    let ending? := request.kind.endingOf? mode (past ++ chunk)
    (controller.feed chunk).1 = .ok ending? ∧
      (monitor.hearNodes chunk).event? = ending?.map (Ending.told request.station) ∧
      (ending? = none → (monitor.hearNodes chunk).taken = chunk.length ∧
        Agrees request mode (past ++ chunk) (monitor.hearNodes chunk).monitor
          (controller.feed chunk).2) ∧
      (ending? ≠ none → (monitor.hearNodes chunk).monitor.awaited? = none) := by
  obtain ⟨exchange, hexchange, htaken⟩ := h.exchange
  rw [Kind.endingOf?]
  -- both halves look at the same report
  rcases Controller.feed_of_hasTaken hexchange htaken chunk with
    ⟨report, hreport, hfeed⟩ | ⟨hnone, next, hnext, hfeed⟩
  · rcases h.hears.feed chunk with ⟨other, hother, hevent, hover⟩ | ⟨hnone, -⟩
    · obtain rfl := Option.some.inj (hreport.symm.trans hother)
      rw [hreport, hfeed, hevent, tells_eq_told]
      exact ⟨rfl, rfl, nofun, fun _ => hover⟩
    · cases hreport.symm.trans hnone
  · rcases h.hears.feed chunk with ⟨other, hother, -⟩ | ⟨-, hevent, htaken, hhears⟩
    · cases hnone.symm.trans hother
    · rw [hnone, hfeed, hevent]
      exact ⟨rfl, rfl, fun _ => ⟨htaken, hhears, next, rfl, hnext⟩, fun hne => absurd rfl hne⟩

/-- **Many chunks.**  As long as the controller waits, the listener takes all in silence. -/
lemma Agrees.feedEach {chunks : List Bytes} (h : Agrees request mode past monitor controller)
    (hwaits : ∀ result ∈ (controller.feedEach chunks).1, result = .ok none) :
    (monitor.hearEach (chunks.map .nodes)).1 = chunks.map (fun chunk => (none, chunk.length)) ∧
      Agrees request mode (past ++ chunks.flatten) (monitor.hearEach (chunks.map .nodes)).2
        (controller.feedEach chunks).2 := by
  induction chunks generalizing monitor controller past with
  | nil =>
      rw [List.flatten_nil, List.append_nil]
      exact ⟨rfl, h⟩
  | cons chunk rest ih =>
      obtain ⟨hfirst, hrest⟩ := List.forall_mem_cons.mp hwaits
      obtain ⟨hfeed, hevent, hon, -⟩ := h.feed chunk
      have hnone := Except.ok.inj (hfeed.symm.trans hfirst)
      obtain ⟨htaken, hagrees⟩ := hon hnone
      obtain ⟨hlater, hlast⟩ := ih hagrees hrest
      rw [List.append_assoc] at hlast
      refine ⟨?_, hlast⟩
      rw [List.map_cons, List.map_cons, hearEach, hear]
      dsimp only
      rw [hlater, hevent, hnone, htaken]
      rfl

/-- **A listener and a controller agree on every answer.**  Whatever a listener has heard before, it
tells of a request, and a controller, which is idle and checks in the same mode, starts the same
request.  As long as the controller wants more of the answer, the listener takes every chunk whole,
tells of nothing, and expects the answer of the station that was asked.  If the exchange ends with
the next chunk, then it ends for both; the listener tells of the same end as the controller, and
expects nothing any more.  How it ends follows from the bytes of the answer alone. -/
theorem agrees_on_replies
    (hheard : ((after mode operations).hearController bytes).event? = some (.request request))
    (hmode : controller.mode = mode) (hidle : controller.isIdle = true) :
    ∃ block started, controller.start request = (.ok block, started) ∧
      ∀ before, (∀ result ∈ (started.feedEach before).1, result = .ok none) →
        let heard := ((after mode operations).hearController bytes).monitor.hearEach
          (before.map .nodes)
        heard.1 = before.map (fun chunk => (none, chunk.length)) ∧
          heard.2.awaitedStation? = some request.station ∧
          ∀ chunk,
            let ending? := request.kind.endingOf? mode (before.flatten ++ chunk)
            ((started.feedEach before).2.feed chunk).1 = .ok ending? ∧
              (heard.2.hearNodes chunk).event? = ending?.map (Ending.told request.station) ∧
              (ending? = none → (heard.2.hearNodes chunk).taken = chunk.length) ∧
              (ending? ≠ none → (heard.2.hearNodes chunk).monitor.awaitedStation? = none) := by
  refine ⟨_, _, Controller.start_of_idle (Controller.isIdle_iff.mp hidle) request, ?_⟩
  intro before hwaits heard
  have hstart : Agrees request mode [] ((after mode operations).hearController bytes).monitor
      { controller with exchange? := some (.start request.kind controller.mode) } :=
    ⟨hears_of_request hheard, _, rfl, hmode ▸ Exchange.hasTaken_start _ _⟩
  obtain ⟨hsilent, hagrees⟩ := hstart.feedEach hwaits
  rw [List.nil_append] at hagrees
  refine ⟨hsilent, congrArg (Option.map Awaited.station) hagrees.hears.awaited_eq, fun chunk => ?_⟩
  obtain ⟨hfeed, hevent, hon, hover⟩ := hagrees.feed chunk
  exact ⟨hfeed, hevent, fun hnone => (hon hnone).1,
    fun hsome => congrArg (Option.map Awaited.station) (hover hsome)⟩

/-- A value is read of a station whose last answer was broken off in front of its check byte, so
that the listener would take the next byte for that.  The controller gave up its last exchange in
the middle of the answer.  The new answer comes in three chunks, one of them empty. -/
theorem agrees_on_replies_behind_broken_answer :
    let request := Request.read ⟨12, by decide⟩ ⟨5, by decide⟩
    let sent : Bytes := [0x02, 0x31, 0x32, 0x30, 0x30, 0x35, 0x03, 0x35]
    let operations := [.hear (.controller sent), .hear (.nodes [0x02, 0x2D, 0x03])]
    let monitor := after .plain operations
    let controller :=
      (((Controller.new .plain).start request).2.feed [0x02, 0x2D, 0x31]).2.expire.2
    (monitor.replies.isIdle = false ∧
        (monitor.hearController sent).event? = some (.request request) ∧
        controller.mode = .plain ∧ controller.isIdle = true) ∧
      (((controller.start request).2.feedEach [[0x02, 0x2B], []]).2.feed [0x37, 0x03, 0x1F]).1
          = .ok (some (.done (.value ⟨7, by decide, by decide⟩))) ∧
        (((monitor.hearController sent).monitor.hearEach
              [.nodes [0x02, 0x2B], .nodes []]).2.hearNodes [0x37, 0x03, 0x1F]).event?
          = some (.reply ⟨12, by decide⟩ (.value ⟨7, by decide, by decide⟩)) := by
  intro request sent operations monitor controller
  have hleft : monitor.replies.isIdle = false := by decide +kernel
  have hheard : (monitor.hearController sent).event? = some (.request request) := by
    decide +kernel
  have hmode : controller.mode = .plain := by decide +kernel
  have hidle : controller.isIdle = true := by decide +kernel
  obtain ⟨block, started, hstart, hagrees⟩ := agrees_on_replies hheard hmode hidle
  have hstarted : started = (controller.start request).2 := congrArg Prod.snd hstart.symm
  obtain ⟨-, -, hchunk⟩ := hagrees [[0x02, 0x2B], []] (by rw [hstarted]; decide +kernel)
  obtain ⟨hfeed, hevent, -⟩ := hchunk [0x37, 0x03, 0x1F]
  rw [hstarted] at hfeed
  have hending : request.kind.endingOf? .plain ([[0x02, 0x2B], []].flatten ++ [0x37, 0x03, 0x1F])
      = some (.done (.value ⟨7, by decide, by decide⟩)) := by decide +kernel
  rw [hending] at hfeed hevent
  exact ⟨⟨hleft, hheard, hmode, hidle⟩, hfeed, hevent⟩

end Monitor

end FieldBus
